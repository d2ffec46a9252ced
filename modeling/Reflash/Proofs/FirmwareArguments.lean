import Mathlib.Data.List.Forall2
import Reflash.CommandLine
import Reflash.Proofs.Text

/-!
# Reflash.Proofs.FirmwareArguments — images that are named on the command line

An argument `LINE=FILE` `Names` a file for a product line: what stands before its first `=` is a name of the
line in any case, and what stands after it is the file.  `firmwareArgument` takes these arguments and no others
(`firmwareArgument_eq_ok_iff`), and the options of a command are taken if each of them is, in their order
(`Reader.options_firmware`).  So an update is told what its arguments name (`parse_update`).
-/

namespace Reflash

/-! ## Letters in any case -/

namespace Text

theorem toNat_toLower {c : Char} (hc : c.isUpper = true) : c.toLower.toNat = c.toNat + 32 := by
  have hrange : c.val ≥ 'A'.val ∧ c.val ≤ 'Z'.val := of_decide_eq_true hc
  have hle : c.toNat ≤ 90 := UInt32.le_iff_toNat_le.mp hrange.2
  have hlower : c.toLower = _ := dif_pos hrange
  rw [hlower]
  show (c.val + ('a'.val - 'A'.val)).toNat = _
  rw [UInt32.toNat_add]
  exact Nat.mod_eq_of_lt (Nat.lt_of_le_of_lt (Nat.add_le_add_right hle 32) (by decide))

theorem toLower_of_not_isUpper {c : Char} (hc : ¬ c.isUpper = true) : c.toLower = c :=
  dif_neg fun h => hc (decide_eq_true h)

/-- A character, or the capital of a letter; the capitals of ASCII stand 32 before their letters. -/
def IsCased (c d : Char) : Prop := c = d ∨ c.isUpper = true ∧ c.toNat + 32 = d.toNat

instance (c d : Char) : Decidable (IsCased c d) := inferInstanceAs (Decidable (_ ∨ _))

theorem toLower_eq_iff {c d : Char} (hd : d.isUpper = false) : c.toLower = d ↔ IsCased c d := by
  by_cases hc : c.isUpper = true
  · have hne : c ≠ d := by
      rintro rfl
      rw [hd] at hc
      cases hc
    rw [IsCased, ← toNat_toLower hc, Char.toNat_inj]
    simp [hc, hne]
  · rw [IsCased, toLower_of_not_isUpper hc]
    simp [hc]

theorem map_toLower_eq_iff {piece known : List Char} (hknown : ∀ d ∈ known, d.isUpper = false) :
    piece.map Char.toLower = known ↔ List.Forall₂ IsCased piece known := by
  induction known generalizing piece with
  | nil => simp
  | cons d known ih =>
    obtain ⟨hd, hknown⟩ := List.forall_mem_cons.mp hknown
    cases piece with
    | nil => simp
    | cons c piece => simp [toLower_eq_iff hd, ih hknown]

/-- A text is cut at the first separator. -/
theorem splitOnce_eq_some_iff {sep : Char} {text before after : List Char} :
    splitOnce sep text = some (before, after) ↔ text = before ++ sep :: after ∧ sep ∉ before := by
  constructor
  · intro h
    induction text generalizing before with
    | nil => cases h
    | cons c rest ih =>
      rw [splitOnce] at h
      split at h
      · rename_i hc
        cases h
        simp [hc]
      · rename_i hc
        obtain ⟨⟨before', after'⟩, hrest, heq⟩ := Option.map_eq_some_iff.mp h
        cases heq
        obtain ⟨rfl, hnot⟩ := ih hrest
        exact ⟨rfl, List.not_mem_cons_of_ne_of_not_mem (Ne.symm hc) hnot⟩
  · rintro ⟨rfl, hnot⟩
    exact splitOnce_append hnot

end Text

/-! ## Names of lines -/

namespace ProductLine

/-- The names of a line and of its series. -/
def names : ProductLine → List String
  | .d400 => ["d400", "d4xx"]
  | .sr300 => ["sr300", "sr3xx"]

/-- A text is a name of a line, in any case of ASCII letters. -/
def IsCalled (line : ProductLine) (text : List Char) : Prop :=
  ∃ known ∈ line.names, List.Forall₂ Text.IsCased text known.toList

theorem parse?_eq_some_iff {text : String} {line : ProductLine} :
    parse? text = some line ↔ line.IsCalled text.toList := by
  have hnames : ∀ known ∈ line.names, ∀ d ∈ known.toList, d.isUpper = false := by
    have hall : (line.names.all fun known => known.toList.all fun d => !d.isUpper) = true := by
      cases line <;> decide
    simpa only [List.all_eq_true, Bool.not_eq_true'] using hall
  have hcalled : line.IsCalled text.toList ↔ String.ofList (text.toList.map Char.toLower) ∈ line.names := by
    constructor
    · rintro ⟨known, hmem, hcased⟩
      rw [(Text.map_toLower_eq_iff (hnames known hmem)).mpr hcased, String.ofList_toList]
      exact hmem
    · intro hmem
      refine ⟨_, hmem, (Text.map_toLower_eq_iff (hnames _ hmem)).mp ?_⟩
      rw [String.toList_ofList]
  rw [hcalled, parse?]
  generalize String.ofList (text.toList.map Char.toLower) = lower
  split <;> cases line <;> simp_all [names]

/-- A name of a line is no switch. -/
theorem IsCalled.head_ne_dash {line : ProductLine} {text : List Char} (h : line.IsCalled text) :
    ∃ c rest, text = c :: rest ∧ c ≠ '-' := by
  obtain ⟨known, hknown, hcased⟩ := h
  obtain ⟨d, rest, hd, hne⟩ : ∃ d rest, known.toList = d :: rest ∧ ¬ Text.IsCased '-' d := by
    cases line <;> simp only [names, List.mem_cons, List.not_mem_nil, or_false] at hknown <;>
      rcases hknown with rfl | rfl
    · exact ⟨'d', "400".toList, by decide, by decide⟩
    · exact ⟨'d', "4xx".toList, by decide, by decide⟩
    · exact ⟨'s', "r300".toList, by decide, by decide⟩
    · exact ⟨'s', "r3xx".toList, by decide, by decide⟩
  rw [hd] at hcased
  obtain ⟨c, rest', hc, -, rfl⟩ := List.forall₂_cons_right_iff.mp hcased
  exact ⟨c, rest', rfl, fun hdash => hne (hdash ▸ hc)⟩

end ProductLine

/-! ## Arguments -/

namespace CommandLine

/-- The argument `LINE=FILE` names a file for a line. -/
def Names (arg : String) (entry : ProductLine × String) : Prop :=
  ∃ name, arg.toList = name ++ '=' :: entry.2.toList ∧ '=' ∉ name ∧ entry.1.IsCalled name ∧ entry.2 ≠ ""

theorem firmwareArgument_eq_ok_iff {arg : String} {entry : ProductLine × String} :
    firmwareArgument arg = .ok entry ↔ Names arg entry := by
  constructor
  · intro h
    rw [firmwareArgument] at h
    split at h
    · cases h
    rename_i name text hcut
    obtain ⟨htext, hname⟩ := Text.splitOnce_eq_some_iff.mp hcut
    split at h
    · cases h
    rename_i line hline
    split at h
    · cases h
    rename_i hne
    cases h
    have hcalled := ProductLine.parse?_eq_some_iff.mp hline
    rw [String.toList_ofList] at hcalled
    exact ⟨name, by rw [htext, String.toList_ofList], hname,
      hcalled, by simpa [String.ofList_eq_empty_iff] using hne⟩
  · rintro ⟨name, htext, hname, hcalled, hne⟩
    have hline : ProductLine.parse? (String.ofList name) = some entry.1 :=
      ProductLine.parse?_eq_some_iff.mpr (by rwa [String.toList_ofList])
    rw [firmwareArgument, htext, Text.splitOnce_append hname]
    simp [hline, hne]

/-! ## Options -/

/-- The ways to write the option with its value. -/
inductive Spelled (arg : String) : List String → Prop
  | apart : Spelled arg ["--firmware", arg]
  | attached : Spelled arg ["--firmware=" ++ arg]

namespace Reader

variable {switches : List Switch} {r : Reader} {arg : String}

/-- An option that stands with its value. -/
theorem argument_attached (switch : Switch) (arg : String) {text : String}
    (htext : text.toList = '-' :: '-' :: (switch.long.toList ++ '=' :: arg.toList))
    (hfind : switches.find? (fun s => s.long = switch.long) = some switch) (hflag : switch.isFlag = false) :
    r.argument switches text = r.option switch (some arg) := by
  have hlong : '=' ∉ switch.long.toList := by
    cases switch <;> decide
  rw [argument, htext]
  show long switches r (switch.long.toList ++ '=' :: arg.toList) = _
  rw [long, Text.splitOnce_append hlong]
  simp [hfind, hflag]

theorem argument_apart (hswitches : switches.find? (fun s => s.long = Switch.firmware.long) = some .firmware) :
    r.argument switches "--firmware" = r.option .firmware none := by
  have hcut : Text.splitOnce '=' "firmware".toList = none := by decide
  show long switches r "firmware".toList = _
  rw [long, hcut]
  rw [Switch.long] at hswitches
  simp [hswitches, Switch.isFlag]

/-! No switch is met where what is pending cannot be read. -/

section Pending

variable {e : ArgumentError} (hr : r.settle = .error e)
include hr

theorem flag_of_settle (switch : Switch) : r.flag switch = .error e := by
  rw [flag, hr]

theorem option_of_settle (switch : Switch) (attached : Option String) : r.option switch attached = .error e := by
  rw [option, hr]

theorem long_of_settle (text : List Char) (next : Reader) : long switches r text ≠ .ok next := by
  unfold long
  split
  split
  · exact nofun
  · split
    · split
      · exact nofun
      · rw [flag_of_settle hr]
        exact nofun
    · rw [option_of_settle hr]
      exact nofun

theorem short_of_settle {text : List Char} (htext : text ≠ []) (next : Reader) :
    short switches r text ≠ .ok next := by
  cases text with
  | nil => exact absurd rfl htext
  | cons c rest =>
    unfold short
    split
    · exact nofun
    · split
      · rw [flag_of_settle hr]
        exact nofun
      · rw [option_of_settle hr]
        exact nofun

end Pending

/-- While an option lacks its value, an argument that is met is taken for the value. -/
theorem argument_pending {g : Given} {next : Reader}
    (h : argument switches ⟨g, some (.firmware, none)⟩ arg = .ok next) :
    next = ⟨g, some (.firmware, some arg)⟩ := by
  have hpending : settle ⟨g, some (.firmware, none)⟩ = .error .invalidValue := rfl
  unfold argument at h
  split at h
  · exact absurd h (long_of_settle hpending _ next)
  · cases h
    rfl
  · rename_i text hne _
    exact absurd h (short_of_settle hpending (fun hnil => hne (by rw [hnil])) next)
  · cases h
    rfl

theorem argument_of_names {entry : ProductLine × String} (h : Names arg entry) :
    r.argument switches arg = r.plain arg := by
  obtain ⟨name, htext, -, hcalled, -⟩ := h
  obtain ⟨c, rest, rfl, hdash⟩ := hcalled.head_ne_dash
  unfold argument
  rw [htext]
  split <;> simp_all

/-- What was given, and then the files that some arguments name, in the order of the arguments. -/
def Collects (given : Except ArgumentError Given) (args : List String) (g : Given) : Prop :=
  ∃ before entries, given = .ok before ∧ List.Forall₂ Names args entries ∧
    g = { before with firmware := before.firmware ++ entries }

@[simp] theorem not_collects_error {e : ArgumentError} {args : List String} {g : Given} :
    ¬ Collects (.error e) args g := by
  simp [Collects]

theorem store_firmware {g g' : Given} : g.store .firmware arg = .ok g' ↔
    ∃ entry, Names arg entry ∧ g' = { g with firmware := g.firmware ++ [entry] } := by
  simp only [← firmwareArgument_eq_ok_iff, Given.store]
  cases firmwareArgument arg with
  | error message => simp
  | ok entry => simp [eq_comm]

theorem collects_cons {before g : Given} {args : List String} :
    Collects (.ok before) (arg :: args) g ↔ Collects (before.store .firmware arg) args g := by
  simp only [Collects, List.forall₂_cons_left_iff, store_firmware]
  constructor
  · rintro ⟨_, _, heq, ⟨entry, entries, hentry, hentries, rfl⟩, rfl⟩
    obtain rfl := Except.ok.inj heq
    exact ⟨_, entries, ⟨entry, hentry, rfl⟩, hentries, by simp⟩
  · rintro ⟨_, entries, ⟨entry, hentry, rfl⟩, hentries, rfl⟩
    exact ⟨before, _, rfl, ⟨entry, entries, hentry, hentries, rfl⟩, by simp⟩

theorem Collects.names {given : Except ArgumentError Given} {args : List String} {g : Given}
    (h : Collects given (arg :: args) g) : ∃ entry, Names arg entry := by
  obtain ⟨_, _, -, hentries, -⟩ := h
  obtain ⟨entry, -, hentry, -⟩ := List.forall₂_cons_left_iff.mp hentries
  exact ⟨entry, hentry⟩

/-- An option that lacks its value takes the next argument for it, or that argument is refused. -/
theorem options_value {before g : Given} {rest : List String}
    (h : options switches ⟨before, some (.firmware, none)⟩ (arg :: rest) = .ok g) :
    options switches ⟨before, some (.firmware, some arg)⟩ rest = .ok g := by
  rw [options] at h
  split at h
  · split at h <;> cases h
  · split at h
    · rename_i next hnext
      obtain rfl := argument_pending hnext
      exact h
    · cases h

theorem options_value_of_names {before : Given} {rest : List String} {entry : ProductLine × String}
    (harg : Names arg entry) :
    options switches ⟨before, some (.firmware, none)⟩ (arg :: rest) =
      options switches ⟨before, some (.firmware, some arg)⟩ rest := by
  have hdashes : arg ≠ "--" := by
    rintro rfl
    obtain ⟨name, htext, -, hcalled, -⟩ := harg
    obtain ⟨c, rest, rfl, hdash⟩ := hcalled.head_ne_dash
    exact hdash (List.cons.inj htext).1.symm
  rw [options, if_neg hdashes, argument_of_names harg]
  rfl

/-- The option is taken for every argument that names a file, in the order of the arguments, and
only if all of them do. -/
theorem options_firmware (hswitches : switches.find? (fun s => s.long = Switch.firmware.long) = some .firmware)
    {args : List String} {words : List (List String)} (hspelled : List.Forall₂ Spelled args words) {g : Given} :
    options switches r words.flatten = .ok g ↔ Collects r.settle args g := by
  induction hspelled generalizing r with
  | nil => simp [options, Collects, eq_comm]
  | @cons arg spelling args words hspelling _ ih =>
    -- The reader meets the option, and what is left then collects the rest.
    have hrest {r' : Reader} {before : Given} (hr' : r'.settle = before.store .firmware arg) :
        options switches r' words.flatten = .ok g ↔ Collects (.ok before) (arg :: args) g := by
      rw [ih, hr', collects_cons]
    rw [List.flatten_cons]
    cases hspelling with
    | attached =>
      have hdashes : "--firmware=" ++ arg ≠ "--" := by
        rw [ne_eq, ← String.toList_inj]
        simp
      rw [List.singleton_append, options, if_neg hdashes,
        argument_attached .firmware arg (by simp [Switch.long]) hswitches rfl, option]
      cases r.settle with
      | error e => simp
      | ok before =>
        cases hstore : before.store .firmware arg with
        | error e => simp [collects_cons, hstore, Except.map]
        | ok after =>
          have hafter : settle ⟨after, none⟩ = before.store .firmware arg := hstore.symm
          simpa [hstore, Except.map] using hrest hafter
    | apart =>
      rw [List.cons_append, List.singleton_append, options, if_neg (by decide), argument_apart hswitches, option]
      cases r.settle with
      | error e => simp
      | ok before =>
        constructor
        · exact fun h => (hrest rfl).mp (options_value h)
        · intro h
          obtain ⟨entry, harg⟩ := h.names
          exact (options_value_of_names harg).trans ((hrest rfl).mpr h)

end Reader

/-- What an update is told by a serial number and some images. -/
def updateOf (serial : String) (entries : List (ProductLine × String)) : CommandLine :=
  ⟨false, .update serial none entries defaultDir false defaultSeconds defaultSeconds⟩

/-- An update takes the images that its arguments name, in their order, and none if an argument names no file. -/
theorem parse_update (serial : String) {args : List String} {words : List (List String)}
    (hspelled : List.Forall₂ Spelled args words) {line : CommandLine} :
    parse ("update" :: ("--serial=" ++ serial) :: words.flatten) = .ok line ↔
      ∃ entries, List.Forall₂ Names args entries ∧ line = updateOf serial entries := by
  have hdashes : "--serial=" ++ serial ≠ "--" := by
    rw [ne_eq, ← String.toList_inj]
    simp
  have hoptions : ∀ g, Reader.options CommandName.update.switches {} (("--serial=" ++ serial) :: words.flatten) =
      .ok g ↔
      Reader.Collects (.ok { serial := some serial }) args g := by
    intro g
    rw [Reader.options, if_neg hdashes, Reader.argument_attached .serial serial (by simp [Switch.long]) rfl rfl]
    exact Reader.options_firmware rfl hspelled
  have hread : parse ("update" :: ("--serial=" ++ serial) :: words.flatten) =
      (command .update (("--serial=" ++ serial) :: words.flatten)).map fun i => ⟨false, i⟩ := rfl
  have hgiven {entries : List (ProductLine × String)} (hentries : List.Forall₂ Names args entries) :
      Reader.options CommandName.update.switches {} (("--serial=" ++ serial) :: words.flatten) =
        .ok { serial := some serial, firmware := [] ++ entries } :=
    (hoptions _).mpr ⟨_, entries, rfl, hentries, rfl⟩
  rw [hread, command]
  constructor
  · intro h
    cases hres : Reader.options CommandName.update.switches {} (("--serial=" ++ serial) :: words.flatten) with
    | error e =>
      rw [hres] at h
      cases h
    | ok g =>
      obtain ⟨before, entries, hbefore, hentries, rfl⟩ := (hoptions g).mp hres
      cases hbefore
      rw [hres] at h
      exact ⟨entries, hentries, (Except.ok.inj h).symm⟩
  · rintro ⟨entries, hentries, rfl⟩
    rw [hgiven hentries]
    rfl

end CommandLine

end Reflash
