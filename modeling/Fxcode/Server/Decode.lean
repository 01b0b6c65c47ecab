import Mathlib.Data.List.Basic
import Mathlib.Algebra.Group.Nat.Basic
/-!
# `decodeURIComponent`

ECMA-262's `Decode(string, reservedSet)` with the empty reserved set, as `decodeURIComponent`
calls it, read one character after the other.  A `%` starts an escape of two hexadecimal
digits; an octet below `80` is a character, and a leading octet of a two- to four-octet UTF-8
sequence waits for its continuation escapes, held in the `Phase`, before the sequence is
checked and its code point emitted.  Every malformed input throws the same `URIError`: an
escape cut short by the end, a non-hexadecimal digit, a continuation octet as a leading one,
a missing continuation escape, or an invalid sequence.

Strings are lists of characters: the escapes only ever produce whole code points, and the
pathnames the server decodes hold no lone surrogates.

* `decodeURIComponent_cons`: a character other than `%` decodes to itself;
* `decodeURIComponent_of_no_percent`: a string without `%` decodes to itself.
-/

namespace Fxcode.Server.Decode

/-- The `URIError` (`URI malformed`) that `decodeURIComponent` throws. -/
structure URIError where
  deriving DecidableEq, Repr

/-- The value of a hexadecimal digit. -/
def hexValue (c : Char) : Option Nat :=
  if '0' ≤ c ∧ c ≤ '9' then some (c.toNat - '0'.toNat)
  else if 'a' ≤ c ∧ c ≤ 'f' then some (c.toNat - 'a'.toNat + 10)
  else if 'A' ≤ c ∧ c ≤ 'F' then some (c.toNat - 'A'.toNat + 10)
  else none

/-- `ParseHexOctet`: the octet two hexadecimal digits write. -/
def parseHexOctet (high low : Char) : Option Nat := do
  let high ← hexValue high
  let low ← hexValue low
  pure (16 * high + low)

/-- The number of leading 1 bits of an octet. -/
def leadingOnes (b : Nat) : Nat :=
  if b < 0x80 then 0 else if b < 0xC0 then 1 else if b < 0xE0 then 2 else if b < 0xF0 then 3
  else if b < 0xF8 then 4 else 5

/-- The least code point a sequence of `n` octets may encode; a smaller one is overlong. -/
def minCodePoint : Nat → Nat
  | 2 => 0x80
  | 3 => 0x800
  | _ => 0x10000

/-- The code point of a valid UTF-8 sequence of two to four octets (RFC 3629), none for a
continuation octet outside `80`-`BF`, an overlong form, a surrogate or a value past `10FFFF`. -/
def codePointFromUTF8 : List Nat → Option Char
  | [] => none
  | lead :: continuation =>
    let n := continuation.length + 1
    let v := continuation.foldl (fun v b => 64 * v + (b - 0x80)) (lead % 2 ^ (7 - n))
    if (∀ b ∈ continuation, 0x80 ≤ b ∧ b ≤ 0xBF) ∧ minCodePoint n ≤ v ∧ v ≤ 0x10FFFF ∧
        ¬(0xD800 ≤ v ∧ v ≤ 0xDFFF) then
      some (Char.ofNat v)
    else none

/-- Where `Decode` stands between two characters: `pending` holds the octets of a multi-octet
sequence read so far (none between characters) and `owed` how many continuation octets it
still needs. -/
inductive Phase
  /-- Between characters: a `%` starts an escape, any other character stands for itself. -/
  | text
  /-- After a `%`: its first hexadecimal digit. -/
  | escapeHigh (pending : List Nat) (owed : Nat)
  /-- After a `%` and a first digit of value `high`: the second digit. -/
  | escapeLow (pending : List Nat) (owed : Nat) (high : Nat)
  /-- Inside a multi-octet sequence, between its escapes: the next one's `%`. -/
  | continuation (pending : List Nat) (owed : Nat)
  deriving DecidableEq, Repr

/-- The octet `b` an escape wrote: a character by itself, the leading octet of a longer
sequence, or its next continuation octet, completing it when none is owed after it. -/
def decodeOctet (pending : List Nat) (owed : Nat) (b : Nat) : Except URIError (Phase × Option Char) :=
  if pending = [] then
    let n := leadingOnes b
    if n = 0 then .ok (.text, some (Char.ofNat b))
    else if n = 1 ∨ n > 4 then .error ⟨⟩
    else .ok (.continuation [b] (n - 1), none)
  else if owed = 1 then
    match codePointFromUTF8 (pending ++ [b]) with
    | none => .error ⟨⟩
    | some c => .ok (.text, some c)
  else .ok (.continuation (pending ++ [b]) (owed - 1), none)

/-- One character of `Decode`: the phase after it and the character it completes, if any. -/
def decodeChar : Phase → Char → Except URIError (Phase × Option Char)
  | .text, c => if c = '%' then .ok (.escapeHigh [] 0, none) else .ok (.text, some c)
  | .escapeHigh pending owed, c =>
    match hexValue c with
    | none => .error ⟨⟩
    | some high => .ok (.escapeLow pending owed high, none)
  | .escapeLow pending owed high, c =>
    match hexValue c with
    | none => .error ⟨⟩
    | some low => decodeOctet pending owed (16 * high + low)
  | .continuation pending owed, c =>
    if c = '%' then .ok (.escapeHigh pending owed, none) else .error ⟨⟩

/-- `Decode` from `phase` on; the string may only end between characters. -/
def decodeFrom (phase : Phase) : List Char → Except URIError (List Char)
  | [] => if phase = .text then .ok [] else .error ⟨⟩
  | c :: rest => do
    let (phase, out) ← decodeChar phase c
    let decoded ← decodeFrom phase rest
    pure (out.toList ++ decoded)

/-- `decodeURIComponent`. -/
def decodeURIComponent (s : String) : Except URIError String := String.mk <$> decodeFrom .text s.data

example : decodeURIComponent "..%2f..%2Fetc" = .ok "../../etc" := rfl
example : decodeURIComponent "%C3%A9t%C3%A9" = .ok "été" := rfl
example : decodeURIComponent "%C0%AF" = .error ⟨⟩ ∧ decodeURIComponent "%E9" = .error ⟨⟩ ∧
    decodeURIComponent "50%" = .error ⟨⟩ :=
  ⟨rfl, rfl, rfl⟩

theorem decodeFrom_cons {c : Char} (hc : c ≠ '%') (rest : List Char) :
    decodeFrom .text (c :: rest) = (c :: ·) <$> decodeFrom .text rest := by
  simp only [decodeFrom, decodeChar, hc, if_false, bind, Except.bind]
  cases decodeFrom .text rest <;> rfl

/-- A character other than `%` decodes to itself, and the rest decodes on its own. -/
theorem decodeURIComponent_cons {c : Char} (hc : c ≠ '%') (rest : List Char) :
    decodeURIComponent ⟨c :: rest⟩ = (fun s => ⟨c :: s.data⟩) <$> decodeURIComponent ⟨rest⟩ := by
  simp only [decodeURIComponent, decodeFrom_cons hc]
  cases decodeFrom .text rest <;> rfl

/-- A string without `%` decodes to itself. -/
theorem decodeURIComponent_of_no_percent {s : String} (h : '%' ∉ s.data) :
    decodeURIComponent s = .ok s := by
  obtain ⟨cs⟩ := s
  induction cs with
  | nil => rfl
  | cons c cs ih =>
    simp only [List.mem_cons, not_or] at h
    rw [decodeURIComponent_cons (Ne.symm h.1), ih h.2]
    rfl

end Fxcode.Server.Decode
