import AsmServer.Proofs.Text.Utf8
import AsmServer.Text.Columns
import Mathlib.Data.List.Induction

/-!
# Slices and bytes

A program that keeps its texts in UTF-8 cuts them at byte offsets and looks at single bytes. A
slice fails when its offsets are out of order, past the end or inside a character, and a byte is
missing past the end.

Every offset that is the byte size of a text in front cuts. A character that is not ASCII has no
byte below 0x80, so a property of ASCII characters can be looked for byte by byte: what is passed
over is the bytes of a text, and its end is a place to cut.
-/

namespace AsmServer

namespace Text

/-- The text from one byte offset up to another. -/
def slice? (first last : Nat) (t : Text) : Option Text := do
  if last < first then none
  let rest ← dropBytes? first t
  takeBytes? (last - first) rest

/-- The byte offset of the first occurrence of `mark`. -/
def offsetOf? (mark t : Text) : Option Nat := (cutAt? mark t).map fun (before, _) => byteSize before

/-- A cut is between two characters, with so many bytes in front. -/
theorem splitAtByte?_eq_some_iff {n : Nat} {t before after : Text} :
    splitAtByte? n t = some (before, after) ↔ t = before ++ after ∧ byteSize before = n := by
  refine ⟨fun cut => ?_, fun ⟨whole, size⟩ => whole ▸ size ▸ splitAtByte?_byteSize_append _ _⟩
  induction t generalizing n before with
  | nil =>
    cases n with
    | zero =>
      cases cut
      exact ⟨rfl, rfl⟩
    | succ n => cases cut
  | cons c rest ih =>
    cases n with
    | zero =>
      cases cut
      exact ⟨rfl, rfl⟩
    | succ n =>
      rw [splitAtByte?, Option.ite_none_right_eq_some, Option.map_eq_some_iff] at cut
      obtain ⟨within, ⟨front, _⟩, found, same⟩ := cut
      cases same
      obtain ⟨rfl, size⟩ := ih found
      exact ⟨rfl, by rw [byteSize_cons, size]; omega⟩

@[simp] theorem slice?_byteSize (before text after : Text) :
    slice? (byteSize before) (byteSize (before ++ text)) (before ++ text ++ after) = some text := by
  have order : ¬byteSize before + byteSize text < byteSize before := by omega
  rw [slice?, byteSize_append, if_neg order, List.append_assoc, dropBytes?_byteSize_append,
    Nat.add_sub_cancel_left]
  exact takeBytes?_byteSize_append text after

/-- A slice is there exactly if its offsets are in order, in range and between characters. -/
theorem slice?_eq_some_iff {first last : Nat} {t text : Text} :
    slice? first last t = some text ↔
      ∃ before after, t = before ++ text ++ after ∧ byteSize before = first ∧
        byteSize (before ++ text) = last := by
  constructor
  · intro cut
    rw [slice?] at cut
    split at cut
    · cases cut
    · next order =>
      obtain ⟨rest, dropped, taken⟩ := Option.bind_eq_some_iff.mp cut
      obtain ⟨⟨before, _⟩, front, rfl⟩ := Option.map_eq_some_iff.mp dropped
      obtain ⟨⟨text, after⟩, behind, rfl⟩ := Option.map_eq_some_iff.mp taken
      obtain ⟨rfl, size⟩ := splitAtByte?_eq_some_iff.mp front
      obtain ⟨rfl, length⟩ := splitAtByte?_eq_some_iff.mp behind
      refine ⟨before, after, by rw [List.append_assoc], size, ?_⟩
      show byteSize (before ++ text) = last
      rw [byteSize_append]
      omega
  · rintro ⟨before, after, rfl, rfl, rfl⟩
    exact slice?_byteSize before text after

example : slice? 0 1 "é".toList = none := by decide

theorem slice?_of_prefix {line before text : Text} (h : before ++ text <+: line) :
    slice? (byteSize before) (byteSize (before ++ text)) line = some text := by
  obtain ⟨after, rfl⟩ := h
  exact slice?_byteSize before text after

theorem takeBytes?_of_prefix {line before : Text} (h : before <+: line) :
    takeBytes? (byteSize before) line = some before := by
  obtain ⟨after, rfl⟩ := h
  exact takeBytes?_byteSize_append before after

theorem columnOfByte_of_prefix {line before : Text} (h : before <+: line) :
    columnOfByte line (byteSize before) = width before := by
  rw [columnOfByte, takeBytes?_of_prefix h, Option.getD_some]

/-- Offsets behind a text count on from its size. -/
theorem splitAtByte?_byteSize_add (before t : Text) (n : Nat) :
    splitAtByte? (byteSize before + n) (before ++ t) =
      (splitAtByte? n t).map fun (first, rest) => (before ++ first, rest) := by
  induction before with
  | nil => simp
  | cons c before ih =>
    obtain ⟨k, size⟩ : ∃ k, c.utf8Size + byteSize before + n = k + 1 :=
      Nat.exists_eq_add_one.mpr (by have := c.utf8Size_pos; omega)
    have within : c.utf8Size ≤ k + 1 := by omega
    have left : k + 1 - c.utf8Size = byteSize before + n := by omega
    rw [byteSize_cons, size, List.cons_append, splitAtByte?, if_pos within, left, ih]
    cases splitAtByte? n t <;> rfl

theorem dropBytes?_byteSize_add (before t : Text) (n : Nat) :
    dropBytes? (byteSize before + n) (before ++ t) = dropBytes? n t := by
  rw [dropBytes?, splitAtByte?_byteSize_add, dropBytes?]
  cases splitAtByte? n t <;> rfl

theorem byteSize_eq_zero_iff {t : Text} : byteSize t = 0 ↔ t = [] := by
  cases t with
  | nil => simp
  | cons c rest => simp [c.utf8Size_pos.ne']

theorem byteSize_concat {c : Char} (ascii : c.toNat < 0x80) (t : Text) :
    byteSize (t ++ [c]) = byteSize t + 1 := by
  rw [byteSize_append, byteSize_cons, byteSize_nil, utf8Size_of_ascii ascii]

/-- One text in front of another within a line has the smaller size. -/
theorem byteSize_le_iff {line p q : Text} (first : p <+: line) (second : q <+: line) :
    byteSize p ≤ byteSize q ↔ p.length ≤ q.length := by
  refine ⟨fun small => ?_, fun short =>
    byteSize_mono (List.prefix_of_prefix_length_le first second short)⟩
  by_contra longer
  rw [Nat.not_le] at longer
  have := byteSize_lt (List.prefix_of_prefix_length_le second first longer.le) longer
  omega

end Text

/-! ## Bytes -/

namespace Utf8

variable {p : Char → Bool} {c : Char} {s t : Text}

/-- What a byte is as a character. Above 0x7F this is no ASCII character. -/
def ofByte (b : UInt8) : Char := Char.ofNat b.toNat

/-- The byte at an index has the property. -/
def at? (p : Char → Bool) (bytes : List UInt8) (index : Nat) : Option Bool :=
  bytes[index]?.map (p <| ofByte ·)

@[simp] theorem encode_nil : encode [] = [] := rfl

@[simp] theorem encode_cons (c : Char) (t : Text) :
    encode (c :: t) = String.utf8EncodeChar c ++ encode t := rfl

@[simp] theorem encode_append (s t : Text) : encode (s ++ t) = encode s ++ encode t :=
  List.flatMap_append

@[simp] theorem length_encode (t : Text) : (encode t).length = Text.byteSize t := by
  induction t with
  | nil => rfl
  | cons c rest ih => simp [ih]

theorem drop_encode (s t : Text) : (encode (s ++ t)).drop (Text.byteSize s) = encode t := by
  rw [encode_append, ← length_encode, List.drop_left]

theorem take_encode (s t : Text) : (encode (s ++ t)).take (Text.byteSize s) = encode s := by
  rw [encode_append, ← length_encode, List.take_left]

theorem toNat_ofByte (b : UInt8) : (ofByte b).toNat = b.toNat := by
  have valid : b.toNat.isValidChar := .inl (by have := b.toNat_lt; omega)
  rw [ofByte, Char.ofNat, dif_pos valid]
  rfl

/-- Whether the property can be read off any byte of a character. -/
def Bytewise (p : Char → Bool) : Prop := ∀ c, ∀ b ∈ String.utf8EncodeChar c, p (ofByte b) = p c

/-- The bytes of a character that is not ASCII are not ASCII. -/
theorem le_of_mem_encodeChar (wide : 0x80 ≤ c.toNat) {b : UInt8}
    (member : b ∈ String.utf8EncodeChar c) : 0x80 ≤ b.toNat := by
  have value : c.val.toNat = c.toNat := rfl
  have most : c.toNat < 0x110000 := by
    have valid : c.toNat < 0xD800 ∨ 0xDFFF < c.toNat ∧ c.toNat < 0x110000 := c.valid
    omega
  simp only [String.utf8EncodeChar, value] at member
  split_ifs at member with one
  · omega
  all_goals
    simp only [List.mem_cons, List.not_mem_nil, or_false] at member
    rcases member with rfl | rfl | rfl | rfl <;> simp <;> omega

theorem bytewise_of_ascii (ascii : ∀ c, p c = true → c.toNat < 0x80) : Bytewise p := by
  intro c b member
  obtain narrow | wide := Nat.lt_or_ge c.toNat 0x80
  · rw [encodeChar_ascii narrow, List.mem_singleton] at member
    rw [member, ofByte, toNat_ofNat (by omega), Char.ofNat_toNat]
  · have high := le_of_mem_encodeChar wide member
    rw [← toNat_ofByte] at high
    rw [Bool.eq_false_iff.mpr fun holds => absurd (ascii _ holds) (by omega),
      Bool.eq_false_iff.mpr fun holds => absurd (ascii _ holds) (by omega)]

theorem Bytewise.not (h : Bytewise p) : Bytewise (!p ·) :=
  fun c b member => congrArg (!·) (h c b member)

/-- Every character has bytes. -/
theorem exists_encodeChar (c : Char) :
    ∃ b rest, String.utf8EncodeChar c = b :: rest :=
  List.exists_cons_of_length_pos (by simpa using c.utf8Size_pos)

/-- Bytes with the property are those of the characters with it. -/
theorem Bytewise.takeWhile (h : Bytewise p) (t : Text) :
    (encode t).takeWhile (p <| ofByte ·) = encode (t.takeWhile p) := by
  induction t with
  | nil => rfl
  | cons c rest ih =>
    by_cases holds : p c = true
    · rw [List.takeWhile_cons_of_pos holds, encode_cons, encode_cons,
        List.takeWhile_append_of_pos fun b member => (h c b member).trans holds, ih]
    · obtain ⟨b, more, bytes⟩ := exists_encodeChar c
      have fails : ¬p (ofByte b) = true := by rwa [h c b (by simp [bytes])]
      rw [List.takeWhile_cons_of_neg holds, encode_cons, bytes, List.cons_append,
        List.takeWhile_cons_of_neg (p := fun b => p (ofByte b)) fails, encode_nil]

/-- Looking back from the end, too. -/
theorem Bytewise.takeEndWhile (h : Bytewise p) (t : Text) :
    ((encode t).reverse.takeWhile (p <| ofByte ·)).length =
      Text.byteSize (Text.takeEndWhile p t) := by
  induction t using List.reverseRecOn with
  | nil => rfl
  | append_singleton rest c ih =>
    have bytes : (encode (rest ++ [c])).reverse =
        (String.utf8EncodeChar c).reverse ++ (encode rest).reverse := by simp
    rw [bytes, Text.takeEndWhile, List.reverse_append, List.reverse_singleton,
      List.singleton_append]
    by_cases holds : p c = true
    · rw [List.takeWhile_append_of_pos fun b member =>
          (h c b (List.mem_reverse.mp member)).trans holds,
        List.takeWhile_cons_of_pos holds, List.length_append, ih]
      simp [Text.takeEndWhile, Nat.add_comm]
    · obtain ⟨b, more, reversed⟩ : ∃ b more, (String.utf8EncodeChar c).reverse = b :: more :=
        List.exists_cons_of_length_pos (by simpa using c.utf8Size_pos)
      have member : b ∈ String.utf8EncodeChar c := by
        rw [← List.mem_reverse, reversed]
        exact List.mem_cons_self
      have fails : ¬p (ofByte b) = true := by rwa [h c b member]
      rw [reversed, List.cons_append, List.takeWhile_cons_of_neg (p := fun b => p (ofByte b)) fails,
        List.takeWhile_cons_of_neg holds]
      rfl

/-- The byte behind a text tells of the character behind it. -/
theorem Bytewise.at?_byteSize (h : Bytewise p) (s t : Text) :
    at? p (encode (s ++ t)) (Text.byteSize s) = t.head?.map p := by
  rw [at?, encode_append, ← length_encode, List.getElem?_append_right (Nat.le_refl _),
    Nat.sub_self]
  cases t with
  | nil => rfl
  | cons c rest =>
    obtain ⟨b, more, bytes⟩ := exists_encodeChar c
    rw [encode_cons, bytes]
    exact congrArg some (h c b (by simp [bytes]))

/-- The byte before the end of a text tells of its last character. -/
theorem Bytewise.at?_byteSize_sub_one (h : Bytewise p) (s : Text) (c : Char) (t : Text) :
    at? p (encode (s ++ [c] ++ t)) (Text.byteSize (s ++ [c]) - 1) = some (p c) := by
  obtain ⟨b, last⟩ : ∃ b, (String.utf8EncodeChar c).getLast? = some b := by
    obtain ⟨b, more, bytes⟩ := exists_encodeChar c
    exact ⟨_, by rw [bytes, List.getLast?_cons]⟩
  have size := c.utf8Size_pos
  have place : Text.byteSize (s ++ [c]) - 1 =
      (encode s).length + ((String.utf8EncodeChar c).length - 1) := by
    simp
    omega
  rw [at?, place, List.append_assoc, encode_append, List.getElem?_append_right (by omega),
    Nat.add_sub_cancel_left, List.singleton_append, encode_cons,
    List.getElem?_append_left (by simp; omega), ← List.getLast?_eq_getElem?, last]
  exact congrArg some (h c b (List.mem_of_getLast? last))

end Utf8

end AsmServer
