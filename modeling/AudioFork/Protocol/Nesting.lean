import AudioFork.Lib.JsonText
import AudioFork.Protocol

/-!
# Nesting — the depth guard against the grammar

`NestingTooDeep` scans a text before the recursive parser sees it, with its own idea of strings and
escapes and without a grammar.  This module holds it to RFC 8259:

* on a JSON text it answers exactly whether the value nests too deep (`Scans`);
* on any text it lets pass, a prefix that some JSON text begins with has at most `maxNestingDepth`
  containers open (`Bounds`), which is as deep as a parser that stops at the first error gets.

Both are closed under what the grammar does, one piece after another and a piece between brackets,
and follow by induction over derivations.
-/

namespace AudioFork
namespace Protocol

open Lib.JsonText

/-- The scan outside a string. -/
abbrev scanAt (depth : Nat) (text : Text) : Bool := nestingTooDeepFrom depth false false text

/-! ## Bytes -/

theorem scanAt_plain {b : UInt8} (hb : plain b = true) (d : Nat) (rest : Text) :
    scanAt d (b :: rest) = scanAt d rest := by
  simp only [plain, Bool.and_eq_true, bne_iff_ne, ne_eq] at hb
  rcases hb with ⟨⟨⟨⟨hquote, hopen⟩, hclose⟩, hopenBrace⟩, hcloseBrace⟩
  simp [scanAt, nestingTooDeepFrom, charQuote, charOpenBrace, charOpenBracket, charCloseBrace,
    charCloseBracket, hquote, hopen, hclose, hopenBrace, hcloseBrace]

theorem scanAt_open {b : UInt8} (hb : b = 0x5B ∨ b = 0x7B) (d : Nat) (rest : Text) :
    scanAt d (b :: rest) = (decide (maxNestingDepth < d + 1) || scanAt (d + 1) rest) := by
  have hquote : b ≠ charQuote := by
    rcases hb with rfl | rfl <;> decide
  have hopen : b = charOpenBrace ∨ b = charOpenBracket := hb.symm
  by_cases hdeep : d + 1 > maxNestingDepth
  · simp [scanAt, nestingTooDeepFrom, hquote, hopen, hdeep]
  · simp [scanAt, nestingTooDeepFrom, hquote, hopen, hdeep]

theorem scanAt_close {b : UInt8} (hb : b = 0x5D ∨ b = 0x7D) (d : Nat) (rest : Text) :
    scanAt (d + 1) (b :: rest) = scanAt d rest := by
  rcases hb with rfl | rfl
  · simp [scanAt, nestingTooDeepFrom, charQuote, charOpenBrace, charOpenBracket, charCloseBrace,
      charCloseBracket]
  · simp [scanAt, nestingTooDeepFrom, charQuote, charOpenBrace, charOpenBracket, charCloseBrace,
      charCloseBracket]

theorem scanAt_quote (d : Nat) (rest : Text) :
    scanAt d (0x22 :: rest) = nestingTooDeepFrom d true false rest := by
  simp [scanAt, nestingTooDeepFrom, charQuote]

/-! ## Strings -/

theorem inString_stringByte {bytes : Text} (h : bytes.all stringByte = true) (d : Nat) (rest : Text) :
    nestingTooDeepFrom d true false (bytes ++ rest) = nestingTooDeepFrom d true false rest := by
  induction bytes with
  | nil => rfl
  | cons b bytes ih =>
      simp only [List.all_cons, Bool.and_eq_true, stringByte, bne_iff_ne, ne_eq] at h
      rcases h with ⟨⟨hquote, hescape⟩, hbytes⟩
      rw [List.cons_append]
      simp only [nestingTooDeepFrom, charBackslash, charQuote, hquote, hescape, if_true, if_false,
        Bool.false_eq_true]
      exact ih hbytes

/-- The byte behind a backslash does not end the string, whatever it is. -/
theorem inString_escape (d : Nat) (b : UInt8) (rest : Text) :
    nestingTooDeepFrom d true false (0x5C :: b :: rest) = nestingTooDeepFrom d true false rest := by
  simp [nestingTooDeepFrom, charBackslash]

theorem inString_char (c : StringChar) (d : Nat) (rest : Text) :
    nestingTooDeepFrom d true false (c.text ++ rest) = nestingTooDeepFrom d true false rest := by
  cases c with
  | unescaped c h => exact inString_stringByte (stringByte_utf8EncodeChar h) d rest
  | short e => exact inString_escape d e.byte rest
  | unicode h₁ h₂ h₃ h₄ =>
      -- the four digits are plain characters of the string once the escape is behind
      have hdigits : [h₁.byte, h₂.byte, h₃.byte, h₄.byte].all stringByte = true := by
        simp [stringByte_hexDigit]
      calc nestingTooDeepFrom d true false ((StringChar.unicode h₁ h₂ h₃ h₄).text ++ rest)
          = nestingTooDeepFrom d true false ([h₁.byte, h₂.byte, h₃.byte, h₄.byte] ++ rest) :=
            inString_escape d 0x75 _
        _ = nestingTooDeepFrom d true false rest := inString_stringByte hdigits d rest

theorem inString_chars (chars : List StringChar) (d : Nat) (rest : Text) :
    nestingTooDeepFrom d true false (chars.flatMap StringChar.text ++ rest) =
      nestingTooDeepFrom d true false rest := by
  induction chars with
  | nil => rfl
  | cons c chars ih =>
      rw [List.flatMap_cons, List.append_assoc, inString_char]
      exact ih

/-- A string is passed over: nothing in it counts. -/
theorem scanAt_string (chars : List StringChar) (d : Nat) (rest : Text) :
    scanAt d (stringText chars ++ rest) = scanAt d rest := by
  have hclose : nestingTooDeepFrom d true false (0x22 :: rest) = scanAt d rest := by
    simp [nestingTooDeepFrom, charBackslash, charQuote]
  calc scanAt d (stringText chars ++ rest)
      = nestingTooDeepFrom d true false (chars.flatMap StringChar.text ++ (0x22 :: rest)) := by
        simp only [stringText, List.cons_append, List.append_assoc, List.nil_append, scanAt_quote]
    _ = nestingTooDeepFrom d true false (0x22 :: rest) := inString_chars chars d _
    _ = scanAt d rest := hclose

/-! ## What the scan makes of a whole piece -/

/-- The scan ends inside the piece if that nests by `n` beyond what is allowed, and comes out of it
at the depth it went in otherwise. -/
def Scans (text : Text) (n : Nat) : Prop :=
  ∀ d, d ≤ maxNestingDepth → ∀ rest,
    scanAt d (text ++ rest) = (decide (maxNestingDepth < d + n) || scanAt d rest)

namespace Scans

variable {a b : Text} {m n : Nat}

theorem of_passed (h : ∀ d rest, scanAt d (a ++ rest) = scanAt d rest) : Scans a 0 := by
  intro d hd rest
  have hshallow : ¬ maxNestingDepth < d + 0 := Nat.not_lt.mpr hd
  rw [h, decide_eq_false hshallow, Bool.false_or]

theorem plain (h : a.all plain = true) : Scans a 0 := by
  apply of_passed
  intro d rest
  induction a with
  | nil => rfl
  | cons x a ih =>
      simp only [List.all_cons, Bool.and_eq_true] at h
      rw [List.cons_append, scanAt_plain h.1]
      exact ih h.2

theorem string (chars : List StringChar) : Scans (stringText chars) 0 :=
  of_passed (scanAt_string chars)

theorem append (ha : Scans a m) (hb : Scans b n) : Scans (a ++ b) (max m n) := by
  intro d hd rest
  have hmax : decide (maxNestingDepth < d + max m n) =
      (decide (maxNestingDepth < d + m) || decide (maxNestingDepth < d + n)) := by
    rw [← Bool.decide_or]
    apply decide_eq_decide.mpr
    omega
  rw [List.append_assoc, ha d hd, hb d hd, hmax, Bool.or_assoc]

/-- A piece between brackets. -/
theorem bracket (ha : Scans a n) {x y : UInt8} (hx : x = 0x5B ∨ x = 0x7B)
    (hy : y = 0x5D ∨ y = 0x7D) : Scans (x :: (a ++ [y])) (n + 1) := by
  intro d hd rest
  rw [List.cons_append, List.append_assoc, scanAt_open hx]
  by_cases hdeep : maxNestingDepth < d + 1
  · have hin : maxNestingDepth < d + (n + 1) := by omega
    rw [decide_eq_true hdeep, decide_eq_true hin, Bool.true_or, Bool.true_or]
  · have hsum : d + 1 + n = d + (n + 1) := by omega
    rw [decide_eq_false hdeep, Bool.false_or, ha (d + 1) (Nat.not_lt.mp hdeep), hsum,
      List.singleton_append, scanAt_close hy]

end Scans

theorem scans_ws (ws : List Blank) : Scans (wsText ws) 0 := .plain (plain_wsText ws)

theorem scans_name (before : List Blank) (name : List StringChar)
    (between : List Blank × List Blank) : Scans (nameText before name between) 0 := by
  have hcolon : (0x3A :: wsText between.2).all plain = true := by
    rw [List.all_cons, plain_wsText, Bool.and_true]
    decide
  exact (((scans_ws before).append (.string name)).append (scans_ws between.1)).append
    (.plain hcolon)

/-- The scan of what is derived depends on the value alone. -/
theorem scans_tree {p : Production} (t : Tree p) : Scans t.text (nestingOf p t.meaning) := by
  induction t with
  | null => exact .plain plain_nullText
  | bool b => exact .plain (plain_boolText b)
  | number n => exact .plain (plain_number n)
  | string chars => exact .string chars
  | emptyArray ws => exact (scans_ws ws).bracket (.inl rfl) (.inl rfl)
  | emptyObject ws => exact (scans_ws ws).bracket (.inr rfl) (.inr rfl)
  | array items ih => exact ih.bracket (.inl rfl) (.inl rfl)
  | object members ih => exact ih.bracket (.inr rfl) (.inr rfl)
  | lastElement before v after ih =>
      have h := (scans_ws before).append (ih.append (scans_ws after))
      simpa [Tree.text, nestingOf, Tree.meaning, nestingOfItems] using h
  | element before v after rest ihv ihrest =>
      have h := (scans_ws before).append
        (ihv.append ((Scans.plain (plain_separatorText after)).append ihrest))
      simpa [Tree.text, nestingOf, Tree.meaning, nestingOfItems] using h
  | lastMember before name between v after ih =>
      have h := (scans_name before name between).append (ih.append (scans_ws after))
      simpa [Tree.text, nestingOf, Tree.meaning, nestingOfMembers] using h
  | member before name between v after rest ihv ihrest =>
      have h := (scans_name before name between).append
        (ihv.append ((Scans.plain (plain_separatorText after)).append ihrest))
      simpa [Tree.text, nestingOf, Tree.meaning, nestingOfMembers] using h

theorem nestingTooDeep_text (doc : Document) :
    nestingTooDeep doc.text = decide (maxNestingDepth < doc.value.nesting) := by
  have hscan : Scans doc.text (max 0 (max doc.value.nesting 0)) :=
    (scans_ws doc.before).append ((scans_tree doc.root).append (scans_ws doc.after))
  rw [Nat.max_zero, Nat.zero_max] at hscan
  calc nestingTooDeep doc.text
      = scanAt 0 (doc.text ++ []) := by rw [List.append_nil]; rfl
    _ = (decide (maxNestingDepth < 0 + doc.value.nesting) || scanAt 0 []) :=
        hscan 0 (Nat.zero_le _) []
    _ = decide (maxNestingDepth < doc.value.nesting) := by
        rw [Nat.zero_add]
        exact Bool.or_false _

/-! ## What a prefix leaves open -/

/-- Where the scan lets a prefix of the piece pass, what that prefix leaves open, `u` of its length,
fits under the limit; what follows the prefix need not belong to the piece. -/
def Bounds (text : Text) (u : Nat → Nat) : Prop :=
  ∀ d, d ≤ maxNestingDepth → ∀ k, k ≤ text.length → ∀ rest,
    scanAt d (text.take k ++ rest) = false → d + u k ≤ maxNestingDepth

namespace Bounds

variable {a b : Text} {m : Nat} {u v : Nat → Nat}

theorem none (a : Text) : Bounds a fun _ => 0 := by
  intro d hd _ _ _ _
  exact hd

theorem congr (h : Bounds a u) (huv : ∀ k, v k = u k) : Bounds a v := by
  intro d hd k hk rest hpass
  rw [huv]
  exact h d hd k hk rest hpass

theorem append (hscan : Scans a m) (ha : Bounds a u) (hb : Bounds b v)
    (hclosed : ∀ k, a.length ≤ k → u k = 0) (hstart : v 0 = 0) :
    Bounds (a ++ b) fun k => u k + v (k - a.length) := by
  intro d hd k hk rest hpass
  rcases Nat.le_total k a.length with hshort | hlong
  · -- the prefix ends within the first piece
    have hzero : k - a.length = 0 := Nat.sub_eq_zero_of_le hshort
    rw [List.take_append_of_le_length hshort] at hpass
    simp only [hzero, hstart, Nat.add_zero]
    exact ha d hd k hshort rest hpass
  · -- it reaches into the second one, and the first has closed what it opened
    rw [List.length_append] at hk
    rw [List.take_append, List.take_of_length_le hlong, List.append_assoc, hscan d hd,
      Bool.or_eq_false_iff] at hpass
    simp only [hclosed k hlong, Nat.zero_add]
    exact hb d hd (k - a.length) (by omega) rest hpass.2

/-- A piece that opens nothing, before another. -/
theorem after (hscan : Scans a 0) (hb : Bounds b v) (hstart : v 0 = 0) :
    Bounds (a ++ b) fun k => v (k - a.length) := by
  have h := append hscan (none a) hb (fun _ _ => rfl) hstart
  simpa only [Nat.zero_add] using h

/-- A piece that opens nothing, behind another. -/
theorem before (hscan : Scans a m) (ha : Bounds a u) (hclosed : ∀ k, a.length ≤ k → u k = 0)
    (b : Text) : Bounds (a ++ b) u :=
  append hscan ha (none b) hclosed rfl

theorem bracket (ha : Bounds a u) (hclosed : ∀ k, a.length ≤ k → u k = 0) (hstart : u 0 = 0)
    {x : UInt8} (hx : x = 0x5B ∨ x = 0x7B) (y : UInt8) :
    Bounds (x :: (a ++ [y])) fun k => u (k - 1) + if 0 < k ∧ k < a.length + 2 then 1 else 0 := by
  intro d hd k hk rest hpass
  simp only [List.length_cons, List.length_append, List.length_nil] at hk
  cases k with
  | zero => simpa [hstart] using hd
  | succ k =>
      rw [List.take_succ_cons, List.cons_append, scanAt_open hx, Bool.or_eq_false_iff] at hpass
      rcases hpass with ⟨hroom, hinside⟩
      have hroom' : d + 1 ≤ maxNestingDepth := Nat.not_lt.mp (of_decide_eq_false hroom)
      rcases Nat.lt_or_ge a.length k with hwhole | hpart
      · -- the closing bracket is part of the prefix
        have hlast : ¬ (0 < k + 1 ∧ k + 1 < a.length + 2) := by omega
        simp only [Nat.add_sub_cancel, hclosed k (Nat.le_of_lt hwhole), if_neg hlast]
        exact hd
      · have hopen : 0 < k + 1 ∧ k + 1 < a.length + 2 := by omega
        rw [List.take_append_of_le_length hpart] at hinside
        have hbound := ha (d + 1) hroom' k hpart rest hinside
        simp only [Nat.add_sub_cancel, if_pos hopen]
        omega

end Bounds

theorem unclosed_zero {p : Production} (t : Tree p) : t.unclosed 0 = 0 :=
  countP_openAt_zero t.containers

theorem unclosed_closed {p : Production} (t : Tree p) :
    ∀ k, t.text.length ≤ k → t.unclosed k = 0 :=
  fun _ => t.unclosed_of_length_le

/-- A value between whitespace, a name or a separator: only the value opens containers. -/
theorem bounds_placed {a b : Text} {t : Tree .value} (hscan : Scans a 0)
    (ht : Bounds t.text t.unclosed) : Bounds (a ++ (t.text ++ b)) fun k => t.unclosed (k - a.length) :=
  .after hscan (.before (scans_tree t) ht (unclosed_closed t) b) (unclosed_zero t)

/-- The same with more values behind. -/
theorem bounds_chained {p : Production} {a b : Text} {t : Tree .value} {rest : Tree p}
    (hscan : Scans a 0) (hb : Scans b 0) (ht : Bounds t.text t.unclosed)
    (hrest : Bounds rest.text rest.unclosed) :
    Bounds (a ++ (t.text ++ (b ++ rest.text))) fun k =>
      t.unclosed (k - a.length) + rest.unclosed (k - (a.length + t.text.length + b.length)) := by
  have htail : Bounds (b ++ rest.text) fun k => rest.unclosed (k - b.length) :=
    .after hb hrest (unclosed_zero rest)
  have hvalue : Bounds (t.text ++ (b ++ rest.text)) fun k =>
      t.unclosed k + rest.unclosed (k - t.text.length - b.length) := by
    refine .append (scans_tree t) ht htail (unclosed_closed t) ?_
    rw [Nat.zero_sub]
    exact unclosed_zero rest
  have hstart : t.unclosed 0 + rest.unclosed (0 - t.text.length - b.length) = 0 := by
    rw [Nat.zero_sub, Nat.zero_sub, unclosed_zero, unclosed_zero]
  simpa only [Nat.sub_sub] using Bounds.after hscan hvalue hstart

/-- Between brackets. -/
theorem bounds_container {p : Production} {t : Tree p} (ht : Bounds t.text t.unclosed) {x : UInt8}
    (hx : x = 0x5B ∨ x = 0x7B) (y : UInt8) :
    Bounds (x :: (t.text ++ [y])) fun k =>
      t.unclosed (k - 1) + if 0 < k ∧ k < t.text.length + 2 then 1 else 0 :=
  .bracket ht (unclosed_closed t) (unclosed_zero t) hx y

theorem bounds_tree {p : Production} (t : Tree p) : Bounds t.text t.unclosed := by
  induction t with
  | null => exact .none _
  | bool b => exact .none _
  | number n => exact .none _
  | string chars => exact .none _
  | emptyArray ws =>
      have h := (Bounds.none (wsText ws)).bracket (fun _ _ => rfl) rfl (.inl rfl) 0x5D
      exact h.congr (countP_container _ [])
  | emptyObject ws =>
      have h := (Bounds.none (wsText ws)).bracket (fun _ _ => rfl) rfl (.inr rfl) 0x7D
      exact h.congr (countP_container _ [])
  | array items ih =>
      exact (bounds_container ih (.inl rfl) 0x5D).congr (countP_container _ _)
  | object members ih =>
      exact (bounds_container ih (.inr rfl) 0x7D).congr (countP_container _ _)
  | lastElement before v after ih =>
      have h := bounds_placed (b := wsText after) (scans_ws before) ih
      exact h.congr fun k => countP_shift _ k _
  | element before v after rest ihv ihrest =>
      have h := bounds_chained (scans_ws before) (.plain (plain_separatorText after)) ihv ihrest
      exact h.congr (countP_shift_append _ _ _ _)
  | lastMember before name between v after ih =>
      have h := bounds_placed (b := wsText after) (scans_name before name between) ih
      exact h.congr fun k => countP_shift _ k _
  | member before name between v after rest ihv ihrest =>
      have h := bounds_chained (scans_name before name between)
        (.plain (plain_separatorText after)) ihv ihrest
      exact h.congr (countP_shift_append _ _ _ _)

theorem bounds_document (doc : Document) : Bounds doc.text doc.unclosed := by
  have h := bounds_placed (b := wsText doc.after) (scans_ws doc.before) (bounds_tree doc.root)
  exact h.congr fun k => countP_shift _ k _

/-! ## The guard -/

/-- The guard is exact on JSON: it answers whether the value nests too deep, however the value is
written.  And it is sound on everything: in a text it lets pass, a beginning that some JSON text
shares opens no more than `maxNestingDepth` containers. -/
theorem nestingTooDeep_exact_and_sound :
    (∀ (v : JsonValue) (text : Text), Renders v text →
      (nestingTooDeep text = true ↔ maxNestingDepth < v.nesting)) ∧
    (∀ text : Text, nestingTooDeep text = false →
      ∀ start : Text, start <+: text → ∀ doc : Document, start <+: doc.text →
        doc.unclosed start.length ≤ maxNestingDepth) := by
  constructor
  · rintro v text ⟨doc, rfl, rfl⟩
    rw [nestingTooDeep_text, decide_eq_true_eq]
  · rintro text hpass start ⟨rest, rfl⟩ doc hstart
    have htake : doc.text.take start.length = start := (List.prefix_iff_eq_take.mp hstart).symm
    have hbound := bounds_document doc 0 (Nat.zero_le _) start.length hstart.length_le rest
    rw [htake, Nat.zero_add] at hbound
    exact hbound hpass

namespace Sample

/-- The string of an escaped quotation mark and a bracket, `n` arrays deep. -/
def nestedTree : Nat → Tree .value
  | 0 => .string [.short .quotationMark, .unescaped '[' (by decide)]
  | n + 1 => .array (.lastElement [] (nestedTree n) [.space])

def nested (n : Nat) : Document := { before := [.tab], root := nestedTree n, after := [] }

end Sample

theorem nestingTooDeep_nested :
    nestingTooDeep (Sample.nested 65).text = true ∧ (Sample.nested 3).unclosed 6 ≤ maxNestingDepth :=
  ⟨(nestingTooDeep_exact_and_sound.1 (Sample.nested 65).value (Sample.nested 65).text
      ⟨Sample.nested 65, rfl, rfl⟩).2 (by decide +kernel),
    nestingTooDeep_exact_and_sound.2 (Sample.nested 3).text (by decide +kernel)
      ((Sample.nested 3).text.take 6) (List.take_prefix _ _) (Sample.nested 3)
      (List.take_prefix _ _)⟩

end Protocol
end AudioFork
