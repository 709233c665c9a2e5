import Tpm2Autoenroll.Cutting.Codes
import Tpm2Autoenroll.Model.Prompts
import Tpm2Autoenroll.Model.Token

/-! The id of a passphrase prompt against the one that systemd-cryptsetup gives it. They are the
same unless the device has bytes that systemd writes in octal, which are written in hexadecimal
here.
-/

namespace Tpm2Autoenroll

open Text (Bytes)
open Cutting (Readable)

-----------------------------------------------------------------------------------------
-- systemd's escapes
-----------------------------------------------------------------------------------------

namespace Systemd

/-- The bytes that are escaped by a letter, each with its letter. -/
def letters : List (UInt8 × Char) :=
  [(0x07, 'a'), (0x08, 'b'), (0x0c, 'f'), (0x0a, 'n'), (0x0d, 'r'), (0x09, 't'), (0x0b, 'v'),
    (0x5c, '\\'), (0x22, '"'), (0x27, '\'')]

/-- Three octal digits. -/
def octal (b : UInt8) : List Char :=
  [(b.toNat / 64).digitChar, (b.toNat / 8 % 8).digitChar, (b.toNat % 8).digitChar]

/-- Another byte that is not printable in ASCII. -/
def Numbered (b : UInt8) : Prop := letters.lookup b = none ∧ (b < 0x20 ∨ 0x7f ≤ b)

instance (b : UInt8) : Decidable (Numbered b) := inferInstanceAs (Decidable (_ ∧ _))

def cescapeByte (b : UInt8) : List Char :=
  match letters.lookup b with
  | some letter => ['\\', letter]
  | none => if b < 0x20 ∨ 0x7f ≤ b then '\\' :: octal b else [Char.ofNat b.toNat]

/-- systemd's `cescape()`. -/
def cescape (s : String) : String := String.ofList ((Text.asBytes s).flatMap cescapeByte)

/-- The id that systemd-cryptsetup gives the prompt for a device. -/
def promptId (device : String) : String := s!"--id=cryptsetup:{cescape device}"

end Systemd

namespace Askpw

open Systemd (letters Numbered)

/-- A property of every byte, by its value. -/
theorem forall_byte {holds : UInt8 → Prop} (all : ∀ n < 256, holds (UInt8.ofNat n)) (b : UInt8)
    : holds b := by
  have this := all b.toNat b.toNat_lt
  rwa [UInt8.ofNat_toNat] at this

-----------------------------------------------------------------------------------------
-- Reading an escape
-----------------------------------------------------------------------------------------

/-- What follows a backslash and an `x`. -/
def readHex : List Char → Option UInt8
  | hi :: lo :: _ => do
      let hi ← Token.hexDigit (UInt8.ofNat hi.toNat)
      let lo ← Token.hexDigit (UInt8.ofNat lo.toNat)
      return hi * 16 + lo
  | _ => none

/-- What follows a backslash. -/
def readLetter : List Char → Option UInt8
  | letter :: rest =>
      if letter = 'x' then readHex rest
      else (letters.find? fun entry => entry.2 = letter).map Prod.fst
  | [] => none

/-- The byte that an escaped text begins with. -/
def readEscaped : List Char → Option UInt8
  | c :: rest => if c = '\\' then readLetter rest else some (UInt8.ofNat c.toNat)
  | [] => none

/-- What can be read is read without regard to what follows it. -/
theorem readEscaped_append {text : List Char} {b : UInt8} (more : List Char)
    (read : readEscaped text = some b)
    : readEscaped (text ++ more) = some b := by
  match text, read with
  | [], read => cases read
  | c :: rest, read =>
      simp only [List.cons_append, readEscaped] at read ⊢
      split_ifs at read ⊢
      · match rest, read with
        | [], read => cases read
        | letter :: rest, read =>
            simp only [List.cons_append, readLetter] at read ⊢
            split_ifs at read ⊢
            · match rest, read with
              | _ :: _ :: _, read => exact read
            · exact read
      · exact read

theorem readEscaped_cescapeByte : ∀ b : UInt8, readEscaped (cescapeByte b) = some b :=
  forall_byte (by decide +kernel)

/-- A text is not escaped as another one. -/
theorem cescape_readable : Readable cescapeByte readEscaped where
  reads b more := readEscaped_append more (readEscaped_cescapeByte b)
  nonempty b none := by
    have read := readEscaped_cescapeByte b
    rw [none] at read
    cases read

theorem cescape_injective {s t : String} (same : cescape s = cescape t) : s = t :=
  Text.asBytes_injective (cescape_readable.injective (String.ofList_injective same))

-----------------------------------------------------------------------------------------
-- Where the escapes differ
-----------------------------------------------------------------------------------------

theorem cescapeByte_eq_iff
    : ∀ b : UInt8, cescapeByte b = Systemd.cescapeByte b ↔ ¬ Numbered b :=
  forall_byte (by decide +kernel)

/-- A byte that is numbered is so with an `x` here and without one there. -/
theorem cescapeByte_apart (b : UInt8) (different : cescapeByte b ≠ Systemd.cescapeByte b)
    (more rest : List Char)
    : cescapeByte b ++ more ≠ Systemd.cescapeByte b ++ rest := by
  have second : ∀ b : UInt8, cescapeByte b ≠ Systemd.cescapeByte b
      → 2 ≤ (cescapeByte b).length ∧ 2 ≤ (Systemd.cescapeByte b).length
        ∧ (cescapeByte b)[1]? ≠ (Systemd.cescapeByte b)[1]? :=
    forall_byte (by decide +kernel)
  obtain ⟨long, alsoLong, apart⟩ := second b different
  intro same
  have at_one := congrArg (·[1]?) same
  simp only [List.getElem?_append_left long, List.getElem?_append_left alsoLong] at at_one
  exact apart at_one

theorem cescape_eq_iff (s : String)
    : cescape s = Systemd.cescape s ↔ ∀ b ∈ Text.asBytes s, ¬ Numbered b := by
  rw [cescape, Systemd.cescape, String.ofList_inj,
    Cutting.flatMap_eq_iff _ cescapeByte_apart]
  exact forall₂_congr fun b _ => cescapeByte_eq_iff b

/-- No argument of the prompt but its id begins like one. -/
theorem promptId_mem_args (volume device : String) (attempt : Attempt)
    : Systemd.promptId device ∈ (Child.askPassword volume device attempt).args
      ↔ cescape device = Systemd.cescape device := by
  have other {arg : String} (apart : arg.toList.take 5 ≠ "--id=".toList)
      : Systemd.promptId device ≠ arg := by
    rintro rfl
    exact apart (by simp [Systemd.promptId, toString])
  have own : Systemd.promptId device = s!"--id=cryptsetup:{cescape device}"
      ↔ cescape device = Systemd.cescape device := by
    simp [Systemd.promptId, eq_comm, toString]
  have first : Systemd.promptId device
      ≠ s!"Please enter passphrase for disk {friendlyName volume device}:" :=
    other (by simp [toString])
  have retry : Systemd.promptId device
      ≠ s!"Passphrase did not unlock {friendlyName volume device}, please try again:" :=
    other (by simp [toString])
  have literal : ∀ arg ∈ ["--icon=drive-harddisk", "--keyname=cryptsetup",
      "--credential=cryptsetup.passphrase", "--multiple", "--timeout=90", "-n", "--accept-cached"],
      arg.toList.take 5 ≠ "--id=".toList := by
    decide
  have plain := fun arg member => other (literal arg member)
  simp only [List.forall_mem_cons, List.not_mem_nil, false_implies, implies_true, and_true] at plain
  obtain ⟨icon, keyname, credential, multiple, timeout, newline, cached⟩ := plain
  rw [← own]
  cases attempt with
  | first =>
      simp only [Child.args, List.cons_append, List.nil_append, List.mem_cons, List.not_mem_nil,
        icon, keyname, credential, multiple, timeout, newline, cached, first, false_or, or_false]
  | retry =>
      simp only [Child.args, List.cons_append, List.nil_append, List.mem_cons, List.not_mem_nil,
        icon, keyname, credential, multiple, timeout, newline, retry, false_or, or_false]

/-- The id of the passphrase prompt is the one that systemd-cryptsetup uses exactly when no byte of
the device is one that systemd writes as a number. Different devices have different ids in any case.
-/
theorem prompt_id (device : String)
    : (cescape device = Systemd.cescape device
        ↔ ∀ b ∈ Text.asBytes device, ¬ Numbered b)
      ∧ (∀ volume attempt, Systemd.promptId device ∈ (Child.askPassword volume device attempt).args
        ↔ ∀ b ∈ Text.asBytes device, ¬ Numbered b)
      ∧ ∀ other, cescape device = cescape other → device = other := by
  refine ⟨cescape_eq_iff device, fun volume attempt => ?_, fun other => cescape_injective⟩
  rw [promptId_mem_args, cescape_eq_iff]

/-- A letter beyond ASCII is two bytes, which are written as `\xc3\xa9` here and `\303\251` there.
-/
theorem beyond_ascii_differs : ¬ ∀ s, cescape s = Systemd.cescape s := by
  intro always
  have same := always "/dev/é"
  revert same
  decide +kernel

example : cescape "a'b\tc" = Systemd.cescape "a'b\tc" := by decide +kernel

end Askpw

end Tpm2Autoenroll
