/-
Characters by reference.

Between an ampersand and a semicolon stands the name of a character, or its code
point as a decimal or hexadecimal number.
-/
import Adventure.Decimal.Read

namespace Adventure.Markup

/-- The number that a hexadecimal digit stands for. -/
def hexDigit? (c : Char) : Option Nat :=
  if c.isDigit then some (c.toNat - '0'.toNat)
  else if 'a' ≤ c ∧ c ≤ 'f' then some (c.toNat - 'a'.toNat + 10)
  else if 'A' ≤ c ∧ c ≤ 'F' then some (c.toNat - 'A'.toNat + 10)
  else none

/-- The number that hexadecimal digits spell, given those before them. -/
def readHex? (above : Nat) : List Char → Option Nat
  | [] => some above
  | c :: cs => (hexDigit? c).bind fun d => readHex? (16 * above + d) cs

/-- Drops one plus sign. -/
def dropPlus : List Char → List Char
  | '+' :: rest => rest
  | rest => rest

/-- The code point in a numeric reference, after the number sign. -/
def readCode? : List Char → Option Nat
  | 'x' :: digits | 'X' :: digits =>
    if (dropPlus digits).isEmpty then none else readHex? 0 (dropPlus digits)
  | digits => Decimal.readNat? (dropPlus digits)

/-- The character of a code point, if it has one. -/
def charOfCode? (code : Nat) : Option Char :=
  if h : code.isValidChar then some (Char.ofNatAux code h) else none

/-- The character that a reference stands for, given what is between the ampersand and
the semicolon. -/
def referenceChar? : List Char → Option Char
  | ['l', 't'] => some '<'
  | ['g', 't'] => some '>'
  | ['a', 'm', 'p'] => some '&'
  | ['q', 'u', 'o', 't'] => some '"'
  | ['a', 'p', 'o', 's'] => some '\''
  | '#' :: code => (readCode? code).bind charOfCode?
  | _ => none

/-- What can be wrong with a reference. -/
inductive ReferenceFault where
  | unterminated
  | unknown (reference : String)
  deriving DecidableEq, Repr

/-- The text with every reference replaced by its character. -/
def decode : List Char → Except ReferenceFault (List Char)
  | [] => .ok []
  | c :: rest =>
    if c ≠ '&' then (decode rest).map (c :: ·)
    else match _h : rest.dropWhile (· ≠ ';') with
      | [] => .error .unterminated
      | _ :: after =>
        let reference := rest.takeWhile (· ≠ ';')
        match referenceChar? reference with
        | none => .error (.unknown (String.ofList reference))
        | some d => (decode after).map (d :: ·)
termination_by cs => cs.length
decreasing_by
  · simp
  · have hle := (List.dropWhile_sublist (l := rest) (· ≠ ';')).length_le
    rw [_h] at hle
    simp only [List.length_cons] at hle ⊢
    omega

end Adventure.Markup
