import ServerUnit.PacketProcessor.StatusPacket
import Mathlib.Data.List.TakeWhile

/-!
# The tokenizer's loop (`packet_processor/process_status_packet.cpp`)

`adv_tokenizer` reads a string stream word by word until its end-of-file bit is set. The loop is
written here over the state of the stream, and shown to compute what `adv_tokenizer` does on the
words between the delimiters; on joined decimal numbers it gives the numbers back.
-/

namespace ServerUnit

open Lib

/-! ### The stream -/

/-- `std::stringstream`, as far as it is read from. -/
structure StringStream where
  rest : List Char
  eofbit : Bool
  failbit : Bool
  deriving DecidableEq

namespace StringStream

def ofString (s : String) : StringStream := ⟨s.toList, false, false⟩

def eof (ss : StringStream) : Bool := ss.eofbit

/-- `std::getline(ss, word, del)`. A stream in a bad state leaves the word as it is; a delimiter is
taken out of the stream; a read that takes nothing at all fails. -/
def getline (ss : StringStream) (word : List Char) (del : Char) : StringStream × List Char :=
  if ss.eofbit || ss.failbit then ({ ss with failbit := true }, word)
  else
    match ss.rest.dropWhile (· != del) with
    | [] => (⟨[], true, ss.rest.isEmpty⟩, ss.rest)
    | _ :: rest => ({ ss with rest }, ss.rest.takeWhile (· != del))

/-- The loop `while (!ss.eof())`, cut off after so many rounds. -/
def readCounts (del : Char) : ℕ → StringStream → List Char → List ℤ → Outcome (List ℤ)
  | 0, _, _, _ => .error .blocked
  | fuel + 1, ss, word, result =>
    if ss.eof then return result
    else do
      let (ss, word) := ss.getline word del
      let count ← stoi word
      readCounts del fuel ss word (result ++ [count])

variable {del : Char} {rest word front back : List Char} {result : List ℤ} {fuel : ℕ}

lemma bne_of_notMem {l : List Char} (h : del ∉ l) : ∀ c ∈ l, (c != del) = true := by
  intro c hc
  apply bne_iff_ne.mpr
  rintro rfl
  exact h hc

/-- A word that ends with a delimiter. -/
lemma getline_delimiter (h : del ∉ front) :
    getline ⟨front ++ del :: back, false, false⟩ word del = (⟨back, false, false⟩, front) := by
  have hfront := bne_of_notMem h
  simp [getline, List.dropWhile_append_of_pos hfront, List.takeWhile_append_of_pos hfront]

/-- The last word meets the end of the stream. -/
lemma getline_last (h : del ∉ rest) :
    getline ⟨rest, false, false⟩ word del = (⟨[], true, rest.isEmpty⟩, rest) := by
  have hrest : rest.dropWhile (· != del) = [] := List.dropWhile_eq_nil_iff.mpr (bne_of_notMem h)
  simp [getline, hrest]

/-- The loop on a stream not read to its end: the words between the delimiters are read one by one,
with one round for each and a last one that finds the stream at its end. -/
lemma readCounts_eq (hfuel : rest.count del + 1 < fuel) :
    readCounts del fuel ⟨rest, false, false⟩ word result =
      ((rest.splitOn del).mapM stoi).map (result ++ ·) := by
  induction fuel generalizing rest word result with
  | zero => omega
  | succ fuel ih =>
    by_cases h : del ∈ rest
    · obtain ⟨front, back, rfl, hfront⟩ := List.eq_append_cons_of_mem h
      have hcount : back.count del + 1 < fuel := by
        rw [List.count_append, List.count_cons_self] at hfuel
        omega
      rw [List.splitOn_append_cons_self_of_not_mem hfront, List.mapM_cons]
      simp only [readCounts, eof, getline_delimiter hfront, Bool.false_eq_true, if_false]
      cases stoi front with
      | error e => rfl
      | ok count =>
        simp only [Outcome.ok_bind]
        rw [ih hcount]
        cases (back.splitOn del).mapM stoi with
        | error e => rfl
        | ok counts => simp [Except.map, pure, Except.pure]
    · rw [List.splitOn_eq_singleton h]
      simp only [readCounts, eof, getline_last h, Bool.false_eq_true, if_false]
      cases hword : stoi rest with
      | error e => simp [hword, Except.map]
      | ok count =>
        -- the stream is at its end now, which the next round finds
        cases fuel with
        | zero => omega
        | succ fuel => simp [readCounts, eof, hword, Except.map, pure, Except.pure]

end StringStream

/-- The loop of the source does what `adv_tokenizer` does. -/
lemma readCounts_ofString {s : String} {del : Char} {fuel : ℕ} {word : List Char}
    (hfuel : s.toList.count del + 1 < fuel) :
    StringStream.readCounts del fuel (.ofString s) word [] = adv_tokenizer s del := by
  rw [StringStream.ofString, StringStream.readCounts_eq hfuel, adv_tokenizer]
  cases (s.toList.splitOn del).mapM stoi <;> simp [Except.map]

/-! ### Decimal numbers -/

lemma digitsValue_eq (digits : List Char) : digitsValue digits = Nat.ofDigitChars 10 digits 0 := rfl

lemma isSpace_of_isDigit {c : Char} (h : c.isDigit = true) : isSpace c = false := by
  obtain ⟨h₁, h₂⟩ := Char.isDigit_iff_toNat.mp h
  have hlow : 48 ≤ c.toNat := h₁
  simp only [isSpace, Bool.or_eq_false_iff, beq_eq_false_iff_ne, Bool.and_eq_false_iff,
    decide_eq_false_iff_not]
  omega

lemma dropWhile_isSpace {digits : List Char} (hdigit : ∀ c ∈ digits, c.isDigit = true) :
    digits.dropWhile isSpace = digits := by
  cases digits with
  | nil => rfl
  | cons c digits => simp [isSpace_of_isDigit (hdigit c List.mem_cons_self)]

section stoi

variable {digits : List Char}

/-- Digits alone are read as their value. -/
lemma stoi_digits (hne : digits ≠ []) (hdigit : ∀ c ∈ digits, c.isDigit = true)
    (hvalue : digitsValue digits < 2 ^ 31) : stoi digits = .ok (digitsValue digits : ℤ) := by
  have htake : digits.takeWhile Char.isDigit = digits := List.takeWhile_eq_self_iff.mpr hdigit
  have hvalue : (digitsValue digits : ℤ) < 2 ^ 31 := by exact_mod_cast hvalue
  have hvalue' : -2 ^ 31 ≤ (digitsValue digits : ℤ) := by omega
  unfold stoi
  rw [dropWhile_isSpace hdigit]
  dsimp only
  split
  · have hminus := hdigit '-' List.mem_cons_self
    cases hminus
  · have hplus := hdigit '+' List.mem_cons_self
    cases hplus
  · simp only [htake, if_neg hne, Bool.false_eq_true, if_false, hvalue, hvalue', and_self, if_true]

/-- Digits behind a minus sign. -/
lemma stoi_minus (hne : digits ≠ []) (hdigit : ∀ c ∈ digits, c.isDigit = true)
    (hvalue : digitsValue digits ≤ 2 ^ 31) :
    stoi ('-' :: digits) = .ok (-(digitsValue digits : ℤ)) := by
  have htake : digits.takeWhile Char.isDigit = digits := List.takeWhile_eq_self_iff.mpr hdigit
  have hdrop : ('-' :: digits).dropWhile isSpace = '-' :: digits := rfl
  have hvalue : (digitsValue digits : ℤ) ≤ 2 ^ 31 := by exact_mod_cast hvalue
  have hlow : -2 ^ 31 ≤ -(digitsValue digits : ℤ) := by omega
  have hhigh : -(digitsValue digits : ℤ) < 2 ^ 31 := by omega
  simp only [stoi, hdrop, htake, if_neg hne, if_true, and_self, hlow, hhigh]

end stoi

lemma isDigit_of_mem_repr {n : ℕ} {c : Char} (hc : c ∈ n.repr.toList) : c.isDigit = true := by
  rw [Nat.toList_repr] at hc
  exact Nat.isDigit_of_mem_toDigits (by omega) (by omega) hc

lemma digitsValue_repr (n : ℕ) : digitsValue n.repr.toList = n := by
  rw [Nat.toList_repr, digitsValue_eq, Nat.ofDigitChars_ten_toDigits]

lemma repr_ne_nil (n : ℕ) : n.repr.toList ≠ [] := by
  rw [Nat.toList_repr]
  exact Nat.toDigits_ne_nil

/-- A decimal number is its digits, behind a minus sign if it is negative. -/
lemma toList_toString_eq (n : ℤ) :
    (toString n).toList =
      if 0 ≤ n then n.toNat.repr.toList else '-' :: (-n).toNat.repr.toList := by
  rw [Int.toString_eq_repr, Int.repr_eq_if]
  split_ifs
  · rfl
  · rw [String.toList_append]
    rfl

/-- Every 32-bit integer is read back from its decimal rendering. -/
lemma stoi_toString {n : ℤ} (hlow : -2 ^ 31 ≤ n) (hhigh : n < 2 ^ 31) :
    stoi (toString n).toList = .ok n := by
  rw [toList_toString_eq]
  split_ifs with hn
  · have hvalue : digitsValue n.toNat.repr.toList < 2 ^ 31 := by
      rw [digitsValue_repr]
      omega
    rw [stoi_digits (repr_ne_nil _) (fun c => isDigit_of_mem_repr) hvalue, digitsValue_repr]
    congr 1
    omega
  · have hvalue : digitsValue (-n).toNat.repr.toList ≤ 2 ^ 31 := by
      rw [digitsValue_repr]
      omega
    rw [stoi_minus (repr_ne_nil _) (fun c => isDigit_of_mem_repr) hvalue, digitsValue_repr]
    congr 1
    omega

/-- A decimal rendering has digits in it and perhaps a sign, and no delimiter. -/
lemma notMem_toString {n : ℤ} {del : Char} (hdigit : del.isDigit = false) (hminus : del ≠ '-') :
    del ∉ (toString n).toList := by
  rw [toList_toString_eq]
  intro hmem
  have hrepr : ∀ m : ℕ, del ∉ m.repr.toList := by
    intro m hm
    rw [isDigit_of_mem_repr hm] at hdigit
    cases hdigit
  split_ifs at hmem
  · exact hrepr _ hmem
  · rcases List.mem_cons.mp hmem with hsign | hmem
    · exact hminus hsign
    · exact hrepr _ hmem

/-- The words of joined renderings are the renderings. -/
lemma splitOn_joined {counts : List ℤ} {del : Char} (hne : counts ≠ [])
    (hdigit : del.isDigit = false) (hminus : del ≠ '-') :
    (String.intercalate del.toString (counts.map toString)).toList.splitOn del =
      counts.map fun n => (toString n).toList := by
  have hdel : del.toString.toList = [del] := by simp
  rw [String.toList_intercalate, hdel, List.map_map]
  apply List.splitOn_intercalate
  · intro word hword
    obtain ⟨n, -, rfl⟩ := List.mem_map.mp hword
    exact notMem_toString hdigit hminus
  · simpa using hne

/-- The tokenizer's loop computes `adv_tokenizer`; joined decimal renderings of 32-bit integers are
read back as the integers, whatever the delimiter, if it is no digit and no minus sign; and the
counts are one more than the delimiters. -/
theorem adv_tokenizer_decodes :
    (∀ (s : String) (del : Char) (fuel : ℕ) (word : List Char), s.toList.count del + 1 < fuel →
      StringStream.readCounts del fuel (.ofString s) word [] = adv_tokenizer s del) ∧
    (∀ (counts : List ℤ) (del : Char), counts ≠ [] → (∀ n ∈ counts, -2 ^ 31 ≤ n ∧ n < 2 ^ 31) →
      del.isDigit = false → del ≠ '-' →
      adv_tokenizer (String.intercalate del.toString (counts.map toString)) del = .ok counts) ∧
    ∀ (s : String) (del : Char) (counts : List ℤ), adv_tokenizer s del = .ok counts →
      counts.length = s.toList.count del + 1 := by
  refine ⟨fun s del fuel word => readCounts_ofString, ?_, fun s del counts =>
    length_of_adv_tokenizer⟩
  intro counts del hne hrange hdigit hminus
  rw [adv_tokenizer_eq_ok, splitOn_joined hne hdigit hminus, List.forall₂_map_left_iff]
  apply List.forall₂_same.mpr
  intro n hn
  exact stoi_toString (hrange n hn).1 (hrange n hn).2

/-- Both limits of an `int`, joined by commas. -/
theorem adv_tokenizer_limits :
    adv_tokenizer "-2147483648,2147483647,0" ',' = .ok [-2147483648, 2147483647, 0] ∧
      StringStream.readCounts ',' 4 (.ofString "-2147483648,2147483647,0") [] [] =
        .ok [-2147483648, 2147483647, 0] ∧
      [-2147483648, 2147483647, 0].length = "-2147483648,2147483647,0".toList.count ',' + 1 := by
  have hjoin :
      String.intercalate ','.toString (([-2147483648, 2147483647, 0] : List ℤ).map toString) =
        "-2147483648,2147483647,0" := by decide +kernel
  have hread : adv_tokenizer "-2147483648,2147483647,0" ',' = .ok [-2147483648, 2147483647, 0] := by
    rw [← hjoin]
    exact adv_tokenizer_decodes.2.1 _ ',' (by simp) (by simp) rfl (by decide)
  refine ⟨hread, ?_, ?_⟩
  · rw [← hread]
    exact adv_tokenizer_decodes.1 "-2147483648,2147483647,0" ',' 4 [] (by decide)
  · exact adv_tokenizer_decodes.2.2 "-2147483648,2147483647,0" ',' _ hread

end ServerUnit
