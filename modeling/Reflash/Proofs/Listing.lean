import Mathlib.Data.List.Infix
import Reflash.Proofs.Commands
import Reflash.Proofs.Firmware.Catalog
import Reflash.Proofs.NextCall

/-!
# Reflash.Proofs.Listing — what the listing of cameras says about them

A listing loads its catalog from the files that are named, one after the other (`finishes_loadCatalog`).  When
the version of a camera has been read, the lines for this camera are printed next (`comesTo_list`).  The advice
in them is taken from the last image of the line of the camera: it recommends an upgrade exactly if that image
embeds a greater revision word (`advice_follows_packed_order`).
-/

namespace Reflash

open Program

namespace Command

variable {firmware entries : List (ProductLine × String)} {catalog : Catalog} {camera : Camera}
  {h before : History}

/-! ## Catalogs -/

/-- The files of some entries are read, one after the other. -/
def readings (entries : List (ProductLine × String)) (contents : List Bytes) : History :=
  List.zipWith (fun entry data => .told (.readFile entry.2) (some (.ok data))) entries contents

/-- The images of some entries, by what their files hold. -/
def images (entries : List (ProductLine × String)) (contents : List Bytes) : List FirmwareImage :=
  List.zipWith (fun entry data => ⟨data, entry.1⟩) entries contents

theorem finishes_loadCatalog {result : Catalog} (hf : (loadCatalog entries catalog).Finishes h (.ok result)) :
    ∃ contents, contents.length = entries.length ∧ h = readings entries contents ∧
      result = (images entries contents).foldl Catalog.offer catalog := by
  induction entries generalizing catalog h with
  | nil =>
    obtain ⟨rfl, hresult⟩ := Attempt.finishes_pure.mp hf
    exact ⟨[], rfl, rfl, Except.ok.inj hresult⟩
  | cons entry rest ih =>
    obtain ⟨image, h₁, h₂, rfl, himage, hrest⟩ := Attempt.finishes_bind_ok.mp hf
    obtain ⟨data, hread, rfl⟩ := Attempt.finishes_bind_pure_ok.mp himage
    rw [Attempt.finishes_of_ok, finishes_tell] at hread
    subst hread
    obtain ⟨contents, hlength, rfl, hresult⟩ := ih hrest
    exact ⟨data :: contents, by simp [hlength], rfl, hresult⟩

/-- A catalog is not loaded only where one of its files cannot be read. -/
theorem finishes_loadCatalog_error {e : CommandError} (hf : (loadCatalog entries catalog).Finishes h (.error e)) :
    ∃ path cause, .told (.readFile path) (some (.error cause)) ∈ h := by
  induction entries generalizing catalog h with
  | nil => cases (Attempt.finishes_pure.mp hf).2
  | cons entry rest ih =>
    rcases Attempt.finishes_bind_error.mp hf with hload | ⟨image, h₁, h₂, rfl, -, hrest⟩
    · rcases Attempt.finishes_bind_error.mp hload with hread | ⟨data, h₁, h₂, -, -, hend⟩
      · obtain ⟨cause, htell, -⟩ := Attempt.finishes_of_error.mp hread
        obtain rfl := finishes_tell.mp htell
        exact ⟨entry.2, cause, List.mem_singleton_self _⟩
      · cases (Attempt.finishes_pure.mp hend).2
    · obtain ⟨path, cause, hmem⟩ := ih hrest
      exact ⟨path, cause, List.mem_append_right _ hmem⟩

/-! ## Lines -/

/-- Some lines are printed. -/
def prints (lines : List String) : History := lines.map fun line => .told (.print line) (some ())

theorem finishes_printAll {lines : List String} {u : Unit} (hf : (printAll lines).Finishes h u) :
    h = prints lines := by
  induction lines generalizing h with
  | nil => exact (finishes_done.mp hf).1
  | cons line rest ih =>
    obtain ⟨u', h₁, h₂, rfl, hprint, hrest⟩ := finishes_bind.mp hf
    obtain rfl := finishes_tell.mp hprint
    rw [ih hrest]
    rfl

theorem stallsAfter_printAll {P : (cameras.sum host).Call → Prop} (lines : List String) :
    (printAll lines).StallsAfter P := by
  induction lines with
  | nil => trivial
  | cons line rest ih => exact stallsAfter_bind (stallsAfter_tell _) fun _ => ih

theorem stallsAfter_describe {P : (cameras.sum host).Call → Prop} (catalog : Catalog) (listing : List Camera) :
    (describe catalog listing).StallsAfter P := by
  induction listing with
  | nil => trivial
  | cons camera rest ih =>
    refine stallsAfter_bind (stallsAfter_bind stallsAfter_identityOf fun identity => ?_) fun _ => ?_
    · split
      · trivial
      · trivial
      · exact stallsAfter_bind (stallsAfter_report _ _) fun _ => trivial
    refine stallsAfter_bind (stallsAfter_bind (stallsAfter_ask _) fun version => ?_) fun _ => ?_
    · split
      · trivial
      · exact stallsAfter_bind (stallsAfter_report _ _) fun _ => trivial
    exact stallsAfter_bind (stallsAfter_printAll _) fun _ => ih

theorem stallsAfter_loadCatalog {P : (cameras.sum host).Call → Prop} (entries : List (ProductLine × String))
    (catalog : Catalog) : (loadCatalog entries catalog).StallsAfter P := by
  induction entries generalizing catalog with
  | nil => trivial
  | cons entry rest ih =>
    refine Attempt.stallsAfter_bind ?_ fun image => ih _
    exact Attempt.stallsAfter_bind (Attempt.stallsAfter_of (stallsAfter_tell _)) fun _ => trivial

theorem stallsAfter_list {P : (cameras.sum host).Call → Prop} (firmware : List (ProductLine × String)) :
    (list firmware).StallsAfter P := by
  refine Attempt.stallsAfter_bind (stallsAfter_loadCatalog _ _) fun catalog => ?_
  refine Attempt.stallsAfter_bind (Attempt.stallsAfter_of (stallsAfter_ask _)) fun found => ?_
  split
  · exact Attempt.stallsAfter_lift (stallsAfter_tell _)
  · exact Attempt.stallsAfter_lift (stallsAfter_describe _ _)

/-! ## One camera after the other -/

theorem only_shownSerial : (shownSerial camera).Only (ofKinds [.identity, .log]) := by
  refine only_bind (only_identityOf (by simp) (by simp)) fun identity => ?_
  split
  · trivial
  · trivial
  · exact only_bind (only_report.mpr (by simp)) fun _ => trivial

/-- What is read of a version is what the camera answers. -/
theorem comesTo_readVersion {camera' : Camera}
    {next : (cameras.sum host).Answer (.inl (.firmware camera)) → Action (Option String)}
    (hc : (readVersion camera').ComesTo before (.inl (.firmware camera)) next) :
    camera' = camera ∧ ∀ version, next (.ok version) = .done version := by
  rcases comesTo_bind.mp hc with ⟨next', hask, rfl⟩ | ⟨answer, h₁, h₂, -, -, hnote⟩
  · cases hask with
    | here => exact ⟨rfl, fun version => rfl⟩
    | later hdone => exact absurd hdone not_comesTo_done
  · -- What follows the answer only takes a note of a failure.
    cases answer with
    | ok version => exact absurd hnote not_comesTo_done
    | error e =>
      have hlog : ∀ text, ((report .warn text).bind fun _ => .done none : Action (Option String)).Only
          (ofKinds [.log]) :=
        fun text => only_bind (only_report.mpr (by simp)) fun _ => trivial
      exact absurd (hnote.only (hlog _)) (by simp)

/-- The rest of a listing, once the version of a camera has been read. -/
def afterVersion (catalog : Catalog) (camera : Camera) (serial : String) (rest : List Camera)
    (version : Option String) :
    Action Unit :=
  (printAll (block catalog camera serial version)).bind fun _ => describe catalog rest

/-- Where a listing asks for the version of a camera, it prints the lines of the camera next. -/
theorem comesTo_describe {listing : List Camera}
    {next : (cameras.sum host).Answer (.inl (.firmware camera)) → Action Unit}
    (hc : (describe catalog listing).ComesTo before (.inl (.firmware camera)) next) :
    ∃ serial rest, ∀ version, next (.ok version) = afterVersion catalog camera serial rest version := by
  induction listing generalizing before with
  | nil => exact absurd hc not_comesTo_done
  | cons camera' rest ih =>
    rcases comesTo_bind.mp hc with ⟨next', hserial, -⟩ | ⟨serial, h₁, h₂, -, -, hc⟩
    · exact absurd (hserial.only only_shownSerial) (by simp)
    rcases comesTo_bind.mp hc with ⟨next', hversion, rfl⟩ | ⟨version, h₃, h₄, -, -, hc⟩
    · obtain ⟨rfl, hanswer⟩ := comesTo_readVersion hversion
      refine ⟨serial, rest, fun version => ?_⟩
      show (next' (.ok version)).bind _ = _
      rw [hanswer version]
      rfl
    rcases comesTo_bind.mp hc with ⟨next', hprint, -⟩ | ⟨u, h₅, h₆, -, -, hc⟩
    · exact absurd (hprint.only (only_printAll (List.mem_singleton_self CallKind.terminal) _)) (by simp)
    · exact ih hc

/-- Where the listing command asks for the version of a camera, it has loaded its catalog, and it prints the
lines of the camera next. -/
theorem comesTo_list
    {next : (cameras.sum host).Answer (.inl (.firmware camera)) → Action (Except CommandError Unit)}
    (hc : (list firmware).run.ComesTo before (.inl (.firmware camera)) next) :
    ∃ contents serial rest, contents.length = firmware.length ∧ readings firmware contents <+: before ∧ ∀ version,
      next (.ok version) = (afterVersion (.ofImages (images firmware contents)) camera serial rest version).bind
        fun u => .done (.ok u) := by
  rcases Attempt.comesTo_bind.mp hc with ⟨next', hload, -⟩ | ⟨catalog, h₁, h₂, rfl, hload, hc⟩
  · exact absurd (hload.only (only_loadCatalog (List.mem_singleton_self CallKind.files) _ _)) (by simp)
  rcases Attempt.comesTo_bind.mp hc with ⟨next', hlist, -⟩ | ⟨found, h₃, h₄, rfl, hlist, hc⟩
  · exact absurd (hlist.only (only_enumerate (List.mem_singleton_self CallKind.list))) (by simp)
  obtain ⟨contents, hlength, rfl, rfl⟩ := finishes_loadCatalog hload
  split at hc
  · have hprint : (liftM (print "No devices found") : Attempt CommandError Unit).Only (ofKinds [.terminal]) :=
      Attempt.only_lift (only_tell.mpr (by simp))
    exact absurd (hc.only hprint) (by simp)
  · rw [Attempt.run_lift] at hc
    rcases comesTo_bind.mp hc with ⟨next', hdescribe, rfl⟩ | ⟨u, h₅, h₆, -, -, hdone⟩
    · obtain ⟨serial, rest, hnext⟩ := comesTo_describe hdescribe
      refine ⟨contents, serial, rest, hlength, List.prefix_append _ _, fun version => ?_⟩
      show (next' (.ok version)).bind _ = _
      rw [hnext version]
      rfl
    · exact absurd hdone not_comesTo_done

/-- In a world that does not die, the lines of the camera are printed, and the listing comes to its end. -/
theorem run_afterVersion {σ : Type} (env : Environment (cameras.sum host) σ) (s : σ)
    (catalog : Catalog) (camera : Camera) (serial : String) (rest : List Camera) (version : Option String) :
    let program : Action (Except CommandError Unit) :=
      (afterVersion catalog camera serial rest version).bind fun u => .done (.ok u)
    (program.run env s).1 ≠ .panicked → (program.run env s).1 = .finished (.ok ()) ∧
      ∃ more, program.history env s = prints (block catalog camera serial version) ++ more := by
  intro program hlives
  have hstalls : program.StallsAfter fun _ => False :=
    stallsAfter_bind (stallsAfter_bind (stallsAfter_printAll _) fun _ => stallsAfter_describe catalog rest)
      fun _ => trivial
  obtain ⟨result, hrun⟩ := hstalls.exists_finished hlives
  obtain ⟨u, h₁, h₂, hhistory, hlines, hdone⟩ := finishes_bind.mp (finishes_history hrun)
  obtain ⟨u', h₃, h₄, rfl, hprint, -⟩ := finishes_bind.mp hlines
  obtain ⟨rfl, rfl⟩ := finishes_done.mp hdone
  obtain rfl := finishes_printAll hprint
  exact ⟨hrun, h₄, by rw [hhistory, List.append_nil]⟩

/-! ## Advice -/

/-- What is printed of a camera before anything about the catalog. -/
def heading (camera : Camera) (serial version : String) : List String :=
  [camera.name, "  Mode:     " ++ camera.kind.mode.name, "  Line:     " ++ camera.kind.line.name,
    "  Serial:   " ++ serial, "  Firmware: " ++ version]

theorem block_of_version?_eq_none {serial version : String} (hcatalog : catalog.version? camera.kind.line = none) :
    block catalog camera serial (some version) = heading camera serial version ++ [""] := by
  simp [block, hcatalog, heading]

theorem block_of_version?_eq_some {serial version : String} {offered : FirmwareVersion}
    (hcatalog : catalog.version? camera.kind.line = some offered) :
    block catalog camera serial (some version) = heading camera serial version ++
      ["  Catalog:  " ++ offered.text ++ " (" ++ advice catalog camera.kind.line (some version) ++ ")", ""] := by
  simp [block, hcatalog, heading]

theorem advice_eq_upgrade_iff {line : ProductLine} {version : String} :
    advice catalog line (some version) = "upgrade recommended" ↔ catalog.recommends line version = true := by
  cases hnewer : catalog.recommends line version <;> simp [advice, hnewer]

theorem advice_eq_upToDate_iff {line : ProductLine} {version : String} :
    advice catalog line (some version) = "up to date" ↔ ¬ catalog.recommends line version = true := by
  cases hnewer : catalog.recommends line version <;> simp [advice, hnewer]

/-- Versions in packed form are ordered as their words, and are read back from their texts.  So where a listing
has read such a version from a camera, its next lines are about this camera, and they recommend an upgrade
exactly if the last image that was given for the line of the camera embeds a greater revision word; the camera
is up to date with any other image, one that embeds no revision among them. -/
theorem advice_follows_packed_order :
    (∀ a b : UInt32, FirmwareVersion.ofPacked a < .ofPacked b ↔ a < b) ∧
    (∀ a : UInt32, FirmwareVersion.parse? (FirmwareVersion.ofPacked a).text = some (.ofPacked a)) ∧
    ∀ {σ : Type} (env : Environment (cameras.sum host) σ) (s : σ) (firmware : List (ProductLine × String))
      (camera : Camera) (word : UInt32) (before after : History),
      let program := (list firmware).run
      let version := (FirmwareVersion.ofPacked word).text
      program.history env s = before ++ .asked (.firmware camera) (some (.ok (some version))) :: after →
      (program.run env s).1 ≠ .panicked →
      (program.run env s).1 = .finished (.ok ()) ∧
      ∃ contents serial more, contents.length = firmware.length ∧ readings firmware contents <+: before ∧
        match Catalog.last? (images firmware contents) camera.kind.line with
        | none => after = prints (heading camera serial version ++ [""]) ++ more
        | some image => ∃ advice,
          after = prints (heading camera serial version ++
            ["  Catalog:  " ++ image.offered.text ++ " (" ++ advice ++ ")", ""]) ++ more ∧
          (advice = "upgrade recommended" ↔ ∃ r, image.Embeds r ∧ word < r) ∧
          (advice = "up to date" ↔ ¬ ∃ r, image.Embeds r ∧ word < r) := by
  refine ⟨FirmwareVersion.ofPacked_lt_iff, fun a => FirmwareVersion.parse?_text _, ?_⟩
  intro σ env s firmware camera word before after program version hhistory hlives
  have hbegins : program.Begins (before ++ .asked (.firmware camera) (some (.ok (some version))) :: after) :=
    hhistory ▸ begins_history env program s
  obtain ⟨next, hnext, -⟩ := begins_append_cons.mp hbegins
  obtain ⟨contents, serial, rest, hlength, hreadings, hrest⟩ := comesTo_list hnext
  obtain ⟨s', hafter, hrun⟩ := hnext.resumes hhistory
  rw [hrest (some version)] at hafter hrun
  rw [hrun] at hlives ⊢
  obtain ⟨hfinished, more, hlines⟩ := run_afterVersion env s' _ camera serial rest (some version) hlives
  refine ⟨hfinished, contents, serial, more, hlength, hreadings, ?_⟩
  rw [hlines] at hafter
  have hoffered := Catalog.version?_ofImages (images firmware contents) camera.kind.line
  cases hlast : Catalog.last? (images firmware contents) camera.kind.line with
  | none =>
    rw [hlast] at hoffered
    rw [block_of_version?_eq_none hoffered] at hafter
    exact hafter
  | some image =>
    have hnewer := @Catalog.recommends_ofImages_iff _ _ _ word hlast
    rw [hlast] at hoffered
    rw [block_of_version?_eq_some hoffered] at hafter
    exact ⟨_, hafter, advice_eq_upgrade_iff.trans hnewer, advice_eq_upToDate_iff.trans (not_congr hnewer)⟩

/-- A world whose unit reports a version. -/
def reporting (version : String) : Environment (cameras.sum host) Obliging
  | .inl (.firmware _), o => (some (.ok (some version)), o)
  | c, o => Obliging.world c o

/-- An image for the line of the unit, up to its revision word. -/
def revised (word : UInt32) : Bytes := List.replicate 0x18E 0 ++ littleEndian 4 word.toNat

/-- The unit has the version 5.9.0.0, and of two images the last one has 5.10.0.0. -/
theorem advice_follows_packed_order_reporting :
    let files := [("old", revised 0x05080000), ("new", revised 0x050A0000)]
    let o : Obliging := { camera := Obliging.unit, files := fun path => files.lookup path }
    let program := (list [(.d400, "old"), (.d400, "new")]).run
    ∃ before after serial more, program.history (reporting "5.9.0.0") o =
        before ++ .asked (.firmware Obliging.unit) (some (.ok (some "5.9.0.0"))) :: after ∧
      after = prints (heading Obliging.unit serial "5.9.0.0" ++
        ["  Catalog:  5.10.0.0 (upgrade recommended)", ""]) ++ more := by
  intro files o program
  let history := program.history (reporting "5.9.0.0") o
  have hhistory : history = history.take 4 ++
      .asked (.firmware Obliging.unit) (some (.ok (some (FirmwareVersion.ofPacked 0x05090000).text))) ::
        history.drop 5 := by
    decide +kernel
  obtain ⟨-, contents, serial, more, hlength, hreadings, hlines⟩ :=
    advice_follows_packed_order.2.2 (reporting "5.9.0.0") o
      [(.d400, "old"), (.d400, "new")] Obliging.unit 0x05090000 _ _ hhistory (by decide +kernel)
  have hbefore : readings [(.d400, "old"), (.d400, "new")] [revised 0x05080000, revised 0x050A0000] =
      history.take 2 := by
    decide +kernel
  obtain ⟨old, new, rfl⟩ := List.length_eq_two.mp hlength
  -- The files that were read are those of the world.
  have hread : readings [(.d400, "old"), (.d400, "new")] [old, new] = history.take 2 := by
    rw [List.prefix_iff_eq_take.mp hreadings, List.take_take]
    rfl
  obtain ⟨rfl, rfl⟩ : old = revised 0x05080000 ∧ new = revised 0x050A0000 := by
    simpa [readings] using hread.trans hbefore.symm
  have hlast : Catalog.last? (images [(.d400, "old"), (.d400, "new")] [revised 0x05080000, revised 0x050A0000])
      Obliging.unit.kind.line = some ⟨revised 0x050A0000, .d400⟩ := by decide +kernel
  have hversion : (FirmwareVersion.ofPacked 0x05090000).text = "5.9.0.0" := by decide +kernel
  have hoffered : (FirmwareImage.mk (revised 0x050A0000) .d400).offered.text = "5.10.0.0" := by decide +kernel
  rw [hlast, hversion] at hlines
  obtain ⟨advice, hafter, hupgrade, -⟩ := hlines
  obtain rfl : advice = "upgrade recommended" :=
    hupgrade.mpr ⟨0x050A0000, ⟨0x18E, rfl, by decide +kernel⟩, by decide⟩
  rw [hoffered] at hafter
  exact ⟨_, _, serial, more, hversion ▸ hhistory, hafter⟩

end Command

end Reflash
