import Mathlib.Data.List.Basic
import Mathlib.Order.Lattice

/-!
# JsonText — the texts of RFC 8259 and where their containers stand

A text is given with its derivation: `Tree` has a constructor for every alternative of the grammar
and carries everything the grammar leaves open, whitespace, the spelling of numbers and the escapes
of strings.  `Tree.text` is the bytes derived and `Tree.meaning` the value they stand for, so that
the texts that render a value are the texts of the trees that mean it.

`Tree.containers` lists where each array and object of a text begins and ends.  From it
`unclosed` counts the containers that a prefix of the text has opened and not yet closed.
-/

namespace AudioFork
namespace Lib
namespace JsonText

/-! ## Lexical pieces -/

/-- `ws = *( %x20 / %x09 / %x0A / %x0D )`. -/
inductive Blank
  | space
  | tab
  | lineFeed
  | carriageReturn
  deriving DecidableEq, Repr

def Blank.byte : Blank → UInt8
  | .space => 0x20
  | .tab => 0x09
  | .lineFeed => 0x0A
  | .carriageReturn => 0x0D

def wsText (ws : List Blank) : List UInt8 := ws.map Blank.byte

def digitByte (d : Fin 10) : UInt8 := UInt8.ofNat (0x30 + d.val)

/-- `1*DIGIT`. -/
structure Digits where
  first : Fin 10
  rest : List (Fin 10)
  deriving DecidableEq, Repr

def Digits.text (d : Digits) : List UInt8 := (d.first :: d.rest).map digitByte

/-- `int = zero / ( digit1-9 *DIGIT )`. -/
inductive IntPart
  | zero
  | digits (first : Fin 9) (rest : List (Fin 10))
  deriving DecidableEq, Repr

def IntPart.text : IntPart → List UInt8
  | .zero => [0x30]
  | .digits first rest => digitByte first.succ :: rest.map digitByte

/-- `exp = e [ minus / plus ] 1*DIGIT`. -/
structure ExpPart where
  upper : Bool
  /-- The sign written, `true` for plus. -/
  sign : Option Bool
  digits : Digits
  deriving DecidableEq, Repr

def signText : Option Bool → List UInt8
  | none => []
  | some false => [0x2D]
  | some true => [0x2B]

def ExpPart.text (e : ExpPart) : List UInt8 :=
  (if e.upper then 0x45 else 0x65) :: (signText e.sign ++ e.digits.text)

/-- `number = [ minus ] int [ frac ] [ exp ]`, as it is spelled. -/
structure Number where
  minus : Bool
  int : IntPart
  frac : Option Digits
  exp : Option ExpPart
  deriving DecidableEq, Repr

def fracText : Option Digits → List UInt8
  | none => []
  | some digits => 0x2E :: digits.text

def expText : Option ExpPart → List UInt8
  | none => []
  | some e => e.text

def Number.text (n : Number) : List UInt8 :=
  (if n.minus then [0x2D] else []) ++ n.int.text ++ fracText n.frac ++ expText n.exp

/-! ## Strings -/

/-- The escapes of one letter. -/
inductive ShortEscape
  | quotationMark
  | reverseSolidus
  | solidus
  | backspace
  | formFeed
  | lineFeed
  | carriageReturn
  | tab
  deriving DecidableEq, Repr

/-- What stands behind the backslash. -/
def ShortEscape.byte : ShortEscape → UInt8
  | .quotationMark => 0x22
  | .reverseSolidus => 0x5C
  | .solidus => 0x2F
  | .backspace => 0x62
  | .formFeed => 0x66
  | .lineFeed => 0x6E
  | .carriageReturn => 0x72
  | .tab => 0x74

def ShortEscape.unit : ShortEscape → UInt16
  | .quotationMark => 0x22
  | .reverseSolidus => 0x5C
  | .solidus => 0x2F
  | .backspace => 0x08
  | .formFeed => 0x0C
  | .lineFeed => 0x0A
  | .carriageReturn => 0x0D
  | .tab => 0x09

/-- `HEXDIG`; the letters may be of either case. -/
structure HexDigit where
  value : Fin 16
  upper : Bool
  deriving DecidableEq, Repr

def HexDigit.byte (h : HexDigit) : UInt8 :=
  if h.value.val < 10 then
    UInt8.ofNat (0x30 + h.value.val)
  else if h.upper then
    UInt8.ofNat (0x41 + (h.value.val - 10))
  else
    UInt8.ofNat (0x61 + (h.value.val - 10))

/-- `unescaped = %x20-21 / %x23-5B / %x5D-10FFFF`. -/
def Unescaped (c : Char) : Prop := 0x20 ≤ c.val.toNat ∧ c.val.toNat ≠ 0x22 ∧ c.val.toNat ≠ 0x5C

instance (c : Char) : Decidable (Unescaped c) := inferInstanceAs (Decidable (_ ∧ _))

/-- One `char` of a string. -/
inductive StringChar
  | unescaped (c : Char) (h : Unescaped c)
  | short (e : ShortEscape)
  /-- `%x75 4HEXDIG` behind the backslash. -/
  | unicode (h₁ h₂ h₃ h₄ : HexDigit)
  deriving DecidableEq, Repr

namespace StringChar

def text : StringChar → List UInt8
  | .unescaped c _ => String.utf8EncodeChar c
  | .short e => [0x5C, e.byte]
  | .unicode h₁ h₂ h₃ h₄ => [0x5C, 0x75, h₁.byte, h₂.byte, h₃.byte, h₄.byte]

/-- The UTF-16 code units a `char` stands for: an escape is one unit, half a surrogate pair
included. -/
def units : StringChar → List UInt16
  | .unescaped c _ =>
      if c.val.toNat < 0x10000 then
        [UInt16.ofNat c.val.toNat]
      else
        [UInt16.ofNat (0xD800 + (c.val.toNat - 0x10000) / 0x400),
          UInt16.ofNat (0xDC00 + (c.val.toNat - 0x10000) % 0x400)]
  | .short e => [e.unit]
  | .unicode h₁ h₂ h₃ h₄ =>
      [UInt16.ofNat
        (((h₁.value.val * 16 + h₂.value.val) * 16 + h₃.value.val) * 16 + h₄.value.val)]

end StringChar

/-- `string = quotation-mark *char quotation-mark`. -/
def stringText (chars : List StringChar) : List UInt8 :=
  0x22 :: (chars.flatMap StringChar.text ++ [0x22])

def stringUnits (chars : List StringChar) : List UInt16 := chars.flatMap StringChar.units

/-! ## Values -/

/-- A JSON value.  The grammar does not say which numbers are the same, so a number is kept as it is
spelled. -/
inductive JsonValue
  | null
  | bool (value : Bool)
  | number (value : Number)
  | string (value : List UInt16)
  | array (items : List JsonValue)
  | object (members : List (List UInt16 × JsonValue))

mutual

/-- How deep arrays and objects nest. -/
def JsonValue.nesting : JsonValue → Nat
  | .null => 0
  | .bool _ => 0
  | .number _ => 0
  | .string _ => 0
  | .array items => nestingOfItems items + 1
  | .object members => nestingOfMembers members + 1

def nestingOfItems : List JsonValue → Nat
  | [] => 0
  | v :: rest => max v.nesting (nestingOfItems rest)

def nestingOfMembers : List (List UInt16 × JsonValue) → Nat
  | [] => 0
  | (_, v) :: rest => max v.nesting (nestingOfMembers rest)

end

/-! ## Derivations -/

/-- What a derivation derives: a value, or what stands between the brackets of an array or the braces
of an object that is not empty. -/
inductive Production
  | value
  | elements
  | members
  deriving DecidableEq, Repr

/-- Whitespace is attached to the values and names beside it, which derives the same texts as
attaching it to the structural characters. -/
inductive Tree : Production → Type
  | null : Tree .value
  | bool (value : Bool) : Tree .value
  | number (value : Number) : Tree .value
  | string (chars : List StringChar) : Tree .value
  | emptyArray (ws : List Blank) : Tree .value
  | array (items : Tree .elements) : Tree .value
  | emptyObject (ws : List Blank) : Tree .value
  | object (members : Tree .members) : Tree .value
  | lastElement (before : List Blank) (value : Tree .value) (after : List Blank) : Tree .elements
  | element (before : List Blank) (value : Tree .value) (after : List Blank)
      (rest : Tree .elements) : Tree .elements
  | lastMember (before : List Blank) (name : List StringChar) (between : List Blank × List Blank)
      (value : Tree .value) (after : List Blank) : Tree .members
  | member (before : List Blank) (name : List StringChar) (between : List Blank × List Blank)
      (value : Tree .value) (after : List Blank) (rest : Tree .members) : Tree .members

def nullText : List UInt8 := [0x6E, 0x75, 0x6C, 0x6C]

def boolText : Bool → List UInt8
  | true => [0x74, 0x72, 0x75, 0x65]
  | false => [0x66, 0x61, 0x6C, 0x73, 0x65]

/-- What stands before the value of a member: its name and the name separator. -/
def nameText (before : List Blank) (name : List StringChar) (between : List Blank × List Blank) :
    List UInt8 :=
  wsText before ++ stringText name ++ wsText between.1 ++ 0x3A :: wsText between.2

/-- What stands between a value and the next one: the value separator. -/
def separatorText (after : List Blank) : List UInt8 := wsText after ++ [0x2C]

namespace Tree

/-- The bytes derived. -/
def text : {p : Production} → Tree p → List UInt8
  | _, .null => nullText
  | _, .bool b => boolText b
  | _, .number n => n.text
  | _, .string chars => stringText chars
  | _, .emptyArray ws => 0x5B :: (wsText ws ++ [0x5D])
  | _, .array items => 0x5B :: (items.text ++ [0x5D])
  | _, .emptyObject ws => 0x7B :: (wsText ws ++ [0x7D])
  | _, .object members => 0x7B :: (members.text ++ [0x7D])
  | _, .lastElement before v after => wsText before ++ (v.text ++ wsText after)
  | _, .element before v after rest =>
      wsText before ++ (v.text ++ (separatorText after ++ rest.text))
  | _, .lastMember before name between v after =>
      nameText before name between ++ (v.text ++ wsText after)
  | _, .member before name between v after rest =>
      nameText before name between ++ (v.text ++ (separatorText after ++ rest.text))

end Tree

/-- What a derivation of each production means. -/
def Meaning : Production → Type
  | .value => JsonValue
  | .elements => List JsonValue
  | .members => List (List UInt16 × JsonValue)

def nestingOf : (p : Production) → Meaning p → Nat
  | .value, v => JsonValue.nesting v
  | .elements, items => nestingOfItems items
  | .members, members => nestingOfMembers members

namespace Tree

def meaning : {p : Production} → Tree p → Meaning p
  | _, .null => JsonValue.null
  | _, .bool b => JsonValue.bool b
  | _, .number n => JsonValue.number n
  | _, .string chars => JsonValue.string (stringUnits chars)
  | _, .emptyArray _ => JsonValue.array []
  | _, .array items => JsonValue.array items.meaning
  | _, .emptyObject _ => JsonValue.object []
  | _, .object members => JsonValue.object members.meaning
  | _, .lastElement _ v _ => ([v.meaning] : List JsonValue)
  | _, .element _ v _ rest => (v.meaning :: rest.meaning : List JsonValue)
  | _, .lastMember _ name _ v _ =>
      ([(stringUnits name, v.meaning)] : List (List UInt16 × JsonValue))
  | _, .member _ name _ v _ rest =>
      ((stringUnits name, v.meaning) :: rest.meaning : List (List UInt16 × JsonValue))

end Tree

/-! ## Containers -/

/-- The half-open range of offsets a container takes in a text. -/
structure Span where
  start : Nat
  stop : Nat
  deriving DecidableEq, Repr

def Span.shift (n : Nat) (c : Span) : Span := { start := c.start + n, stop := c.stop + n }

/-- After `k` bytes the container is open: its first byte is among them and its last one is not. -/
def Span.openAt (k : Nat) (c : Span) : Bool := decide (c.start < k ∧ k < c.stop)

/-- The containers of a text, by where they stand in it. -/
def Tree.containers : {p : Production} → Tree p → List Span
  | _, .null => []
  | _, .bool _ => []
  | _, .number _ => []
  | _, .string _ => []
  | _, .emptyArray ws => [{ start := 0, stop := (wsText ws).length + 2 }]
  | _, .array items =>
      { start := 0, stop := items.text.length + 2 } :: items.containers.map (Span.shift 1)
  | _, .emptyObject ws => [{ start := 0, stop := (wsText ws).length + 2 }]
  | _, .object members =>
      { start := 0, stop := members.text.length + 2 } :: members.containers.map (Span.shift 1)
  | _, .lastElement before v _ => v.containers.map (Span.shift (wsText before).length)
  | _, .element before v after rest =>
      v.containers.map (Span.shift (wsText before).length) ++
        rest.containers.map
          (Span.shift ((wsText before).length + v.text.length + (separatorText after).length))
  | _, .lastMember before name between v _ =>
      v.containers.map (Span.shift (nameText before name between).length)
  | _, .member before name between v after rest =>
      v.containers.map (Span.shift (nameText before name between).length) ++
        rest.containers.map
          (Span.shift ((nameText before name between).length + v.text.length +
            (separatorText after).length))

/-- `JSON-text = ws value ws`, with its derivation. -/
structure Document where
  before : List Blank
  root : Tree .value
  after : List Blank

namespace Document

def text (d : Document) : List UInt8 := wsText d.before ++ (d.root.text ++ wsText d.after)

def value (d : Document) : JsonValue := d.root.meaning

def containers (d : Document) : List Span :=
  d.root.containers.map (Span.shift (wsText d.before).length)

/-- How many containers the first `k` bytes of the text open and do not close. -/
def unclosed (d : Document) (k : Nat) : Nat := d.containers.countP (Span.openAt k)

end Document

/-- The text renders the value. -/
def Renders (v : JsonValue) (text : List UInt8) : Prop :=
  ∃ d : Document, d.value = v ∧ d.text = text

/-! ## The bytes of the lexical pieces -/

/-- Outside a string: neither the beginning of one nor a bracket or brace. -/
def plain (b : UInt8) : Bool := b != 0x22 && b != 0x5B && b != 0x5D && b != 0x7B && b != 0x7D

/-- Inside a string: neither its end nor the beginning of an escape. -/
def stringByte (b : UInt8) : Bool := b != 0x22 && b != 0x5C

theorem plain_digitByte (d : Fin 10) : plain (digitByte d) = true := by
  revert d
  decide

theorem plain_wsText (ws : List Blank) : (wsText ws).all plain = true := by
  have hblank : ∀ b : Blank, plain b.byte = true := by
    intro b
    cases b <;> decide
  simp [wsText, hblank]

theorem plain_digits (d : Digits) : d.text.all plain = true := by
  simp [Digits.text, plain_digitByte]

theorem plain_number (n : Number) : n.text.all plain = true := by
  have hminus : (if n.minus then [(0x2D : UInt8)] else []).all plain = true := by
    cases n.minus <;> decide
  have hint : n.int.text.all plain = true := by
    cases n.int with
    | zero => decide
    | digits first rest => simp [IntPart.text, plain_digitByte]
  have hfrac : (fracText n.frac).all plain = true := by
    cases n.frac with
    | none => rfl
    | some digits =>
        have hpoint : plain 0x2E = true := by decide
        simp [fracText, hpoint, plain_digits digits]
  have hexp : (expText n.exp).all plain = true := by
    cases n.exp with
    | none => rfl
    | some e =>
        have hletter : plain (if e.upper then 0x45 else 0x65) = true := by
          cases e.upper <;> decide
        have hsign : (signText e.sign).all plain = true := by
          rcases e.sign with _ | _ | _ <;> decide
        simp only [expText, ExpPart.text, List.all_cons, List.all_append, hletter, hsign,
          plain_digits e.digits, Bool.and_true]
  simp only [Number.text, List.all_append, hminus, hint, hfrac, hexp, Bool.and_true]

theorem plain_nullText : nullText.all plain = true := by decide

theorem plain_boolText (b : Bool) : (boolText b).all plain = true := by
  cases b <;> decide

theorem plain_separatorText (after : List Blank) : (separatorText after).all plain = true := by
  have hcomma : plain 0x2C = true := by decide
  simp only [separatorText, List.all_append, plain_wsText, List.all_cons, List.all_nil, hcomma,
    Bool.and_true]

/-- A byte of a character beyond ASCII has its high bit set. -/
theorem stringByte_of_high {b : UInt8} (h : 0x80 ≤ b.toNat) : stringByte b = true := by
  have hquote : b ≠ 0x22 := by
    rintro rfl
    exact absurd h (by decide)
  have hescape : b ≠ 0x5C := by
    rintro rfl
    exact absurd h (by decide)
  simp [stringByte, hquote, hescape]

theorem stringByte_utf8EncodeChar {c : Char} (h : Unescaped c) :
    (String.utf8EncodeChar c).all stringByte = true := by
  rcases h with ⟨-, hquote, hescape⟩
  generalize hv : c.val.toNat = v at hquote hescape
  have hhigh : ∀ n, 0x80 ≤ n → n < 0x100 → stringByte (UInt8.ofNat n) = true := by
    intro n hlow hbyte
    apply stringByte_of_high
    rw [UInt8.toNat_ofNat_of_lt' hbyte]
    exact hlow
  unfold String.utf8EncodeChar
  simp only [hv]
  split
  · -- an ASCII character is its own byte
    rename_i hascii
    have hbyte : ∀ k, k < 256 → v ≠ k → UInt8.ofNat v ≠ UInt8.ofNat k := by
      intro k hk hne heq
      have := congrArg UInt8.toNat heq
      rw [UInt8.toNat_ofNat_of_lt' (Nat.lt_of_le_of_lt hascii (by decide)),
        UInt8.toNat_ofNat_of_lt' hk] at this
      exact hne this
    have hq : UInt8.ofNat v ≠ 0x22 := hbyte 0x22 (by decide) hquote
    have he : UInt8.ofNat v ≠ 0x5C := hbyte 0x5C (by decide) hescape
    simp [stringByte, hq, he]
  · split
    · simp only [List.all_cons, List.all_nil, Bool.and_true, Bool.and_eq_true]
      exact ⟨hhigh _ (by omega) (by omega), hhigh _ (by omega) (by omega)⟩
    · split
      · simp only [List.all_cons, List.all_nil, Bool.and_true, Bool.and_eq_true]
        exact ⟨hhigh _ (by omega) (by omega), hhigh _ (by omega) (by omega),
          hhigh _ (by omega) (by omega)⟩
      · simp only [List.all_cons, List.all_nil, Bool.and_true, Bool.and_eq_true]
        exact ⟨hhigh _ (by omega) (by omega), hhigh _ (by omega) (by omega),
          hhigh _ (by omega) (by omega), hhigh _ (by omega) (by omega)⟩

theorem stringByte_hexDigit (h : HexDigit) : stringByte h.byte = true := by
  rcases h with ⟨value, upper⟩
  revert value upper
  decide

/-! ## Counting containers -/

/-- How many containers the first `k` bytes of what is derived open and do not close. -/
def Tree.unclosed {p : Production} (t : Tree p) (k : Nat) : Nat :=
  t.containers.countP (Span.openAt k)

theorem Span.openAt_shift (n k : Nat) (c : Span) : (c.shift n).openAt k = c.openAt (k - n) := by
  simp only [Span.openAt, Span.shift]
  apply decide_eq_decide.mpr
  omega

theorem countP_shift (n k : Nat) (spans : List Span) :
    (spans.map (Span.shift n)).countP (Span.openAt k) = spans.countP (Span.openAt (k - n)) := by
  rw [List.countP_map]
  congr 1
  funext c
  exact Span.openAt_shift n k c

theorem countP_shift_append (n m : Nat) (l l' : List Span) (k : Nat) :
    (l.map (Span.shift n) ++ l'.map (Span.shift m)).countP (Span.openAt k) =
      l.countP (Span.openAt (k - n)) + l'.countP (Span.openAt (k - m)) := by
  rw [List.countP_append, countP_shift, countP_shift]

/-- A container, and those inside it. -/
theorem countP_container (len : Nat) (inside : List Span) (k : Nat) :
    ({ start := 0, stop := len + 2 } :: inside.map (Span.shift 1)).countP (Span.openAt k) =
      inside.countP (Span.openAt (k - 1)) + if 0 < k ∧ k < len + 2 then 1 else 0 := by
  rw [List.countP_cons, countP_shift]
  simp only [Span.openAt, decide_eq_true_eq]

theorem countP_openAt_zero (spans : List Span) : spans.countP (Span.openAt 0) = 0 := by
  apply List.countP_eq_zero.mpr
  intro c _
  simp [Span.openAt]

/-- Every span ends within the first `n` bytes. -/
def Within (n : Nat) (spans : List Span) : Prop := ∀ c ∈ spans, c.stop ≤ n

theorem Within.shift {len n m : Nat} {spans : List Span} (h : Within len spans)
    (hm : n + len ≤ m) : Within m (spans.map (Span.shift n)) := by
  intro c hc
  rcases List.mem_map.mp hc with ⟨c', hc', rfl⟩
  calc (c'.shift n).stop
      = c'.stop + n := rfl
    _ ≤ len + n := Nat.add_le_add_right (h c' hc') n
    _ ≤ m := Nat.le_trans (Nat.le_of_eq (Nat.add_comm len n)) hm

theorem Within.append {n : Nat} {l l' : List Span} (h : Within n l) (h' : Within n l') :
    Within n (l ++ l') := by
  intro c hc
  rcases List.mem_append.mp hc with hl | hl'
  · exact h c hl
  · exact h' c hl'

/-- Containers lie within the text. -/
theorem Tree.within {p : Production} (t : Tree p) : Within t.text.length t.containers := by
  induction t with
  | null => simp [Tree.containers, Within]
  | bool b => simp [Tree.containers, Within]
  | number n => simp [Tree.containers, Within]
  | string chars => simp [Tree.containers, Within]
  | emptyArray ws => simp [Tree.containers, Tree.text, Within]
  | emptyObject ws => simp [Tree.containers, Tree.text, Within]
  | array items ih =>
      have hitems : Within (Tree.array items).text.length (items.containers.map (Span.shift 1)) :=
        ih.shift (by simp only [Tree.text, List.length_cons, List.length_append]; omega)
      exact List.forall_mem_cons.mpr ⟨by simp [Tree.text], hitems⟩
  | object members ih =>
      have hmembers :
          Within (Tree.object members).text.length (members.containers.map (Span.shift 1)) :=
        ih.shift (by simp only [Tree.text, List.length_cons, List.length_append]; omega)
      exact List.forall_mem_cons.mpr ⟨by simp [Tree.text], hmembers⟩
  | lastElement before v after ih =>
      exact ih.shift (by simp only [Tree.text, List.length_append]; omega)
  | element before v after rest ihv ihrest =>
      apply Within.append
      · exact ihv.shift (by simp only [Tree.text, List.length_append]; omega)
      · exact ihrest.shift (by simp only [Tree.text, List.length_append]; omega)
  | lastMember before name between v after ih =>
      exact ih.shift (by simp only [Tree.text, List.length_append]; omega)
  | member before name between v after rest ihv ihrest =>
      apply Within.append
      · exact ihv.shift (by simp only [Tree.text, List.length_append]; omega)
      · exact ihrest.shift (by simp only [Tree.text, List.length_append]; omega)

/-- At its end a text has closed what it opened. -/
theorem Tree.unclosed_of_length_le {p : Production} (t : Tree p) {k : Nat}
    (h : t.text.length ≤ k) : t.unclosed k = 0 := by
  apply List.countP_eq_zero.mpr
  intro c hc
  have hstop := t.within c hc
  simp only [Span.openAt, decide_eq_true_eq]
  omega

end JsonText
end Lib
end AudioFork
