/-
Taking tokens back.

Tokens that were handed out can be put back, and the one put back last comes out
first.  The token handed out last can be looked at again at any time.
-/

namespace Adventure

/-- Tokens put back, the next one first, and the token handed out last. -/
structure Replay (τ : Type) where
  held : List τ
  last : Option τ
  deriving DecidableEq, Repr

namespace Replay

variable {τ : Type}

/-- Nothing is put back and nothing was handed out. -/
def empty : Replay τ :=
  ⟨[], none⟩

/-- Puts a token back. -/
def push (r : Replay τ) (token : τ) : Replay τ :=
  { r with held := token :: r.held }

/-- Notes that a token was handed out from elsewhere. -/
def produced (r : Replay τ) (token : τ) : Replay τ :=
  { r with last := some token }

/-- Hands out the token put back last, if there is one. -/
def pop? (r : Replay τ) : Option (τ × Replay τ) :=
  match r.held with
  | [] => none
  | token :: rest => some (token, ⟨rest, some token⟩)

end Replay

/-- A source of tokens under a replay. -/
structure Feed (σ τ : Type) where
  source : σ
  replay : Replay τ

namespace Feed

variable {σ τ ε : Type}

/-- A source from which nothing was taken yet. -/
def ofSource (source : σ) : Feed σ τ :=
  ⟨source, .empty⟩

/-- The next token: the one put back last, or else what `scan` takes from the source.
After a failure the source stays where `scan` left it. -/
def next (scan : σ → EStateM.Result ε σ τ) (s : Feed σ τ) :
    EStateM.Result ε (Feed σ τ) τ :=
  match s.replay.pop? with
  | some (token, replay) => .ok token { s with replay }
  | none =>
    match scan s.source with
    | .ok token source => .ok token ⟨source, s.replay.produced token⟩
    | .error e source => .error e { s with source }

/-- The token handed out last. -/
def peek? (s : Feed σ τ) : Option τ :=
  s.replay.last

/-- Puts a token back. -/
def push (s : Feed σ τ) (token : τ) : Feed σ τ :=
  { s with replay := s.replay.push token }

end Feed

end Adventure
