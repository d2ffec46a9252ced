/-!
# Reflash.StopToken — requests to stop, shared between their holders

A stop token is a flag that is raised once and never lowered.  Clones of a token share its flag, so every holder
of a clone sees the request; a fresh token has a flag of its own.
-/

namespace Reflash

/-- Tokens in the order they were made. -/
structure StopTokens where
  /-- Whether each flag is raised. -/
  flags : List Bool := [false]
  /-- The flag of each token. -/
  tokens : List Nat := [0]
  deriving DecidableEq

namespace StopTokens

/-- Adds a token with a flag of its own. -/
def fresh (s : StopTokens) : StopTokens := ⟨s.flags ++ [false], s.tokens ++ [s.flags.length]⟩

/-- Adds a clone of the token at `i`. -/
def clone (s : StopTokens) (i : Nat) : StopTokens := { s with tokens := s.tokens ++ [s.tokens.getD i 0] }

def stop (s : StopTokens) (i : Nat) : StopTokens := { s with flags := s.flags.set (s.tokens.getD i 0) true }

/-- Whether each token sees a request. -/
def seen (s : StopTokens) : List Bool := s.tokens.map fun flag => s.flags.getD flag false

end StopTokens

end Reflash
