import Mathlib.Data.List.Forall2
import Mathlib.Data.Char

/-!
# UTF-8

The bytes of a text, a text of bytes, and the ranges of bytes that may follow the first byte of a
character.
-/

namespace Lib.Utf8

/-- The bytes of a text. -/
def bytes (s : String) : List UInt8 := s.toList.flatMap String.utf8EncodeChar

/-- The text of the bytes, if there is one. -/
def ofBytes (l : List UInt8) : Option String := String.fromUTF8? l.toByteArray

lemma toByteArray_bytes (s : String) : (bytes s).toByteArray = s.toByteArray :=
  String.utf8Encode_toList

lemma ofBytes_eq_some {l : List UInt8} {s : String} : ofBytes l = some s ↔ bytes s = l := by
  have htoByteArray : ∀ l l' : List UInt8, l.toByteArray = l'.toByteArray → l = l' := by
    intro l l' h
    simpa using congrArg (fun b : ByteArray => b.data.toList) h
  rw [ofBytes, String.fromUTF8?]
  constructor
  · intro h
    split_ifs at h with hvalid
    cases h
    exact htoByteArray _ _ (toByteArray_bytes _)
  · rintro rfl
    have hvalid : (bytes s).toByteArray.IsValidUTF8 := toByteArray_bytes s ▸ s.isValidUTF8
    rw [dif_pos hvalid, Option.some_inj]
    exact String.toByteArray_inj.mp (toByteArray_bytes s)

lemma bytes_injective : Function.Injective bytes := by
  intro s t h
  have hs := ofBytes_eq_some.mpr (rfl : bytes s = bytes s)
  rw [h, ofBytes_eq_some.mpr rfl] at hs
  exact (Option.some_inj.mp hs).symm

/-- The bytes of a text are those of its characters. -/
lemma bytes_ofList (l : List Char) : bytes (String.ofList l) = l.flatMap String.utf8EncodeChar := by
  rw [bytes, String.toList_ofList]

lemma bytes_append (s t : String) : bytes (s ++ t) = bytes s ++ bytes t := by
  rw [bytes, String.toList_append, List.flatMap_append]
  rfl

/-! ### The bytes of a character -/

/-- The ranges of the bytes after the first one. -/
def ranges (b : ℕ) : Option (List (ℕ × ℕ)) :=
  if b ≤ 0x7F then some []
  else if b < 0xC2 then none
  else if b ≤ 0xDF then some [(0x80, 0xBF)]
  else if b = 0xE0 then some [(0xA0, 0xBF), (0x80, 0xBF)]
  else if b = 0xED then some [(0x80, 0x9F), (0x80, 0xBF)]
  else if b ≤ 0xEF then some [(0x80, 0xBF), (0x80, 0xBF)]
  else if b = 0xF0 then some [(0x90, 0xBF), (0x80, 0xBF), (0x80, 0xBF)]
  else if b ≤ 0xF3 then some [(0x80, 0xBF), (0x80, 0xBF), (0x80, 0xBF)]
  else if b = 0xF4 then some [(0x80, 0x8F), (0x80, 0xBF), (0x80, 0xBF)]
  else none

def InRange (r : ℕ × ℕ) (b : UInt8) : Prop := r.1 ≤ b.toNat ∧ b.toNat ≤ r.2

instance (r : ℕ × ℕ) (b : UInt8) : Decidable (InRange r b) :=
  inferInstanceAs (Decidable (_ ∧ _))

/-- The bytes of a code point. -/
def encode (n : ℕ) : List UInt8 :=
  if n < 0x80 then [.ofNat n]
  else if n ≤ 0x7FF then [.ofNat (0xC0 + n / 64), .ofNat (0x80 + n % 64)]
  else if n ≤ 0xFFFF then
    [.ofNat (0xE0 + n / 4096), .ofNat (0x80 + n / 64 % 64), .ofNat (0x80 + n % 64)]
  else
    [.ofNat (0xF0 + n / 262144), .ofNat (0x80 + n / 4096 % 64), .ofNat (0x80 + n / 64 % 64),
      .ofNat (0x80 + n % 64)]

lemma toNat_le (c : Char) : c.toNat ≤ 0x10FFFF := by
  rcases c.valid with h | h
  · exact le_trans (le_of_lt h) (by decide)
  · exact Nat.le_of_lt_succ h.2

lemma utf8EncodeChar_eq (c : Char) : String.utf8EncodeChar c = encode c.toNat := by
  have hc := toNat_le c
  have hval : c.val.toNat = c.toNat := rfl
  have hbyte : ∀ {a b : ℕ}, a = b → UInt8.ofNat a = UInt8.ofNat b := congrArg UInt8.ofNat
  have h₁ : c.toNat < 0x80 ↔ c.toNat ≤ 0x7F := Nat.lt_succ_iff
  simp only [encode, String.utf8EncodeChar, hval, h₁]
  split_ifs
  · rfl
  · simp only [List.cons.injEq, and_true]
    exact ⟨hbyte (by omega), hbyte (by omega)⟩
  · simp only [List.cons.injEq, and_true]
    exact ⟨hbyte (by omega), hbyte (by omega), hbyte (by omega)⟩
  · simp only [List.cons.injEq, and_true]
    exact ⟨hbyte (by omega), hbyte (by omega), hbyte (by omega), hbyte (by omega)⟩

/-- Bytes of ASCII are a text. -/
lemma exists_bytes_eq {l : List UInt8} (h : ∀ b ∈ l, b.toNat < 0x80) : ∃ t, bytes t = l := by
  induction l with
  | nil => exact ⟨"", rfl⟩
  | cons b l ih =>
    obtain ⟨hb, hl⟩ := List.forall_mem_cons.mp h
    obtain ⟨t, rfl⟩ := ih hl
    refine ⟨String.ofList (Char.ofNatAux b.toNat (.inl (by omega)) :: t.toList), ?_⟩
    rw [bytes_ofList, List.flatMap_cons, utf8EncodeChar_eq]
    change encode b.toNat ++ bytes t = b :: bytes t
    rw [encode, if_pos hb, UInt8.ofNat_toNat]
    rfl

/-- The character of a code point. -/
lemma exists_toNat_eq {n : ℕ} (h : n.isValidChar) : ∃ c : Char, c.toNat = n :=
  ⟨Char.ofNatAux n h, rfl⟩

/-- The bytes of a code point are a text. -/
lemma exists_bytes_encode {n : ℕ} (h : n.isValidChar) : ∃ t, bytes t = encode n := by
  obtain ⟨c, rfl⟩ := exists_toNat_eq h
  refine ⟨String.ofList [c], ?_⟩
  rw [bytes_ofList, ← utf8EncodeChar_eq]
  exact List.append_nil _

lemma ranges_three : ∀ d < 16, ranges (0xE0 + d) =
    some [(if d = 0 then 0xA0 else 0x80, if d = 13 then 0x9F else 0xBF), (0x80, 0xBF)] := by
  decide

lemma ranges_four : ∀ d < 5, ranges (0xF0 + d) =
    some [(if d = 0 then 0x90 else 0x80, if d = 4 then 0x8F else 0xBF), (0x80, 0xBF),
      (0x80, 0xBF)] := by
  decide

lemma toNat_ofNat {k : ℕ} (hk : k < 256) : (UInt8.ofNat k).toNat = k :=
  UInt8.toNat_ofNat_of_lt' hk

/-- The bytes of a character are in the ranges of its first byte. -/
lemma ranges_encode {n : ℕ} (hn : n.isValidChar) : ∃ b l, encode n = b :: l ∧
    ∃ rs, ranges b.toNat = some rs ∧ List.Forall₂ InRange rs l := by
  have hcont : ∀ k, InRange (0x80, 0xBF) (UInt8.ofNat (0x80 + k % 64)) := by
    intro k
    rw [InRange, toNat_ofNat (by omega)]
    dsimp only
    omega
  have hn' : n < 0xD800 ∨ 0xDFFF < n ∧ n < 0x110000 := hn
  rw [encode]
  split_ifs with h₁ h₂ h₃
  · refine ⟨_, _, rfl, [], ?_, .nil⟩
    rw [toNat_ofNat (by omega), ranges, if_pos (by omega)]
  · refine ⟨_, _, rfl, [(0x80, 0xBF)], ?_, .cons (hcont n) .nil⟩
    rw [toNat_ofNat (by omega), ranges, if_neg (by omega), if_neg (by omega),
      if_pos (by omega)]
  · have hrs := ranges_three (n / 4096) (by omega)
    rw [← toNat_ofNat (k := 0xE0 + n / 4096) (by omega)] at hrs
    refine ⟨_, _, rfl, _, hrs, .cons ?_ (.cons (hcont n) .nil)⟩
    rw [InRange, toNat_ofNat (by omega)]
    split_ifs <;> omega
  · have hrs := ranges_four (n / 262144) (by omega)
    rw [← toNat_ofNat (k := 0xF0 + n / 262144) (by omega)] at hrs
    refine ⟨_, _, rfl, _, hrs, .cons ?_ (.cons (hcont _) (.cons (hcont n) .nil))⟩
    rw [InRange, toNat_ofNat (by omega)]
    split_ifs <;> omega

/-- The bytes of a character that is no ASCII. -/
lemma le_of_mem_encode {n : ℕ} (hn : n.isValidChar) (hle : 0x80 ≤ n) :
    ∀ b ∈ encode n, 0x80 ≤ b.toNat := by
  have hn' : n < 0xD800 ∨ 0xDFFF < n ∧ n < 0x110000 := hn
  have hbyte : ∀ k, 0x80 ≤ k → k < 256 → 0x80 ≤ (UInt8.ofNat k).toNat := by
    intro k hk hlt
    rw [toNat_ofNat hlt]
    exact hk
  rw [encode, if_neg (by omega)]
  split_ifs <;> simp only [List.forall_mem_cons, List.not_mem_nil, false_imp_iff, implies_true,
    and_true]
  · exact ⟨hbyte _ (by omega) (by omega), hbyte _ (by omega) (by omega)⟩
  · exact ⟨hbyte _ (by omega) (by omega), hbyte _ (by omega) (by omega),
      hbyte _ (by omega) (by omega)⟩
  · exact ⟨hbyte _ (by omega) (by omega), hbyte _ (by omega) (by omega),
      hbyte _ (by omega) (by omega), hbyte _ (by omega) (by omega)⟩

lemma encode_two {b b₁ : UInt8} (hb : 0xC2 ≤ b.toNat ∧ b.toNat ≤ 0xDF)
    (h₁ : 0x80 ≤ b₁.toNat ∧ b₁.toNat ≤ 0xBF) : ∃ n, n.isValidChar ∧ encode n = [b, b₁] := by
  refine ⟨(b.toNat - 0xC0) * 64 + (b₁.toNat - 0x80), .inl (by omega), ?_⟩
  rw [encode, if_neg (by omega), if_pos (by omega)]
  simp only [List.cons.injEq, and_true, ← UInt8.toNat_inj, UInt8.toNat_ofNat']
  omega

lemma encode_three {b b₁ b₂ : UInt8} (hb : 0xE0 ≤ b.toNat ∧ b.toNat ≤ 0xEF)
    (h₁ : 0x80 ≤ b₁.toNat ∧ b₁.toNat ≤ 0xBF) (hlow : b.toNat = 0xE0 → 0xA0 ≤ b₁.toNat)
    (hhigh : b.toNat = 0xED → b₁.toNat ≤ 0x9F) (h₂ : 0x80 ≤ b₂.toNat ∧ b₂.toNat ≤ 0xBF) :
    ∃ n, n.isValidChar ∧ encode n = [b, b₁, b₂] := by
  refine ⟨(b.toNat - 0xE0) * 4096 + (b₁.toNat - 0x80) * 64 + (b₂.toNat - 0x80), ?_, ?_⟩
  · rw [Nat.isValidChar]
    omega
  · rw [encode, if_neg (by omega), if_neg (by omega), if_pos (by omega)]
    simp only [List.cons.injEq, and_true, ← UInt8.toNat_inj, UInt8.toNat_ofNat']
    omega

lemma encode_four {b b₁ b₂ b₃ : UInt8} (hb : 0xF0 ≤ b.toNat ∧ b.toNat ≤ 0xF4)
    (h₁ : 0x80 ≤ b₁.toNat ∧ b₁.toNat ≤ 0xBF) (hlow : b.toNat = 0xF0 → 0x90 ≤ b₁.toNat)
    (hhigh : b.toNat = 0xF4 → b₁.toNat ≤ 0x8F) (h₂ : 0x80 ≤ b₂.toNat ∧ b₂.toNat ≤ 0xBF)
    (h₃ : 0x80 ≤ b₃.toNat ∧ b₃.toNat ≤ 0xBF) :
    ∃ n, n.isValidChar ∧ encode n = [b, b₁, b₂, b₃] := by
  refine ⟨(b.toNat - 0xF0) * 262144 + (b₁.toNat - 0x80) * 4096 + (b₂.toNat - 0x80) * 64 +
    (b₃.toNat - 0x80), ?_, ?_⟩
  · rw [Nat.isValidChar]
    omega
  · rw [encode, if_neg (by omega), if_neg (by omega), if_neg (by omega)]
    simp only [List.cons.injEq, and_true, ← UInt8.toNat_inj, UInt8.toNat_ofNat']
    omega

/-- What is in the ranges of its first byte are the bytes of a character. -/
lemma encode_of_ranges {b : UInt8} {l : List UInt8} {rs : List (ℕ × ℕ)}
    (hrs : ranges b.toNat = some rs) (hl : List.Forall₂ InRange rs l) :
    ∃ n, n.isValidChar ∧ encode n = b :: l := by
  rw [ranges] at hrs
  split_ifs at hrs with h
  · cases hrs
    cases hl
    refine ⟨b.toNat, .inl (by omega), ?_⟩
    rw [encode, if_pos (by omega), UInt8.ofNat_toNat]
  all_goals cases hrs
  · obtain _ | ⟨h₁, _ | _⟩ := hl
    exact encode_two (by omega) h₁
  iterate 3
    obtain _ | ⟨h₁, _ | ⟨h₂, _ | _⟩⟩ := hl
    simp only [InRange] at h₁
    exact encode_three (by omega) (by omega) (fun _ => by omega) (fun _ => by omega) h₂
  iterate 3
    obtain _ | ⟨h₁, _ | ⟨h₂, _ | ⟨h₃, _ | _⟩⟩⟩ := hl
    simp only [InRange] at h₁
    exact encode_four (by omega) (by omega) (fun _ => by omega) (fun _ => by omega) h₂ h₃

end Lib.Utf8
