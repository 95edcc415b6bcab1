import ServerUnit.JsonText.Serializer
import ServerUnit.JsonText.Lexer
import Mathlib.Data.Nat.Log

/-!
# Integers as texts

The digits that the serializer writes fill the buffer up to the place that it counted, and the lexer
reads the integer from them, if nothing follows that could belong to a number.
-/

namespace ServerUnit

open Lib

namespace Serializer

/-! ### Digits -/

lemma count_digits_eq (x : ℕ) : count_digits x = Nat.log 10 x + 1 := by
  induction x using Nat.strong_induction_on with
  | _ x ih =>
    have hlog : ∀ n, 10 ≤ n → Nat.log 10 n = Nat.log 10 (n / 10) + 1 := fun n hn =>
      Nat.log_of_one_lt_of_le (by decide) hn
    have hlow : ∀ n < 10, Nat.log 10 n = 0 := fun n hn => Nat.log_of_lt hn
    rw [count_digits]
    split_ifs with h₁ h₂ h₃ h₄
    · rw [hlow x h₁]
    · rw [hlog x (by omega), hlow _ (by omega)]
    · rw [hlog x (by omega), hlog (x / 10) (by omega), hlow _ (by omega)]
    · rw [hlog x (by omega), hlog (x / 10) (by omega), hlog (x / 10 / 10) (by omega),
        hlow _ (by omega)]
    · rw [ih _ (by omega), hlog x (by omega), hlog (x / 10) (by omega),
        hlog (x / 10 / 10) (by omega), hlog (x / 10 / 10 / 10) (by omega)]
      simp only [Nat.div_div_eq_div_mul]

/-- The digits of a number, without zeros in front. -/
structure IsDecimal (x : ℕ) (digits : List UInt8) : Prop where
  isDigit : ∀ d ∈ digits, Lexer.isDigit d = true
  value : Lexer.decimalValue digits = x
  length : digits.length = Nat.log 10 x + 1
  head : ∀ d ∈ digits.head?, 0 < x → d ≠ '0'.toUInt8

lemma toNat_digit {d : ℕ} (hd : d < 10) : (digit d).toNat = 0x30 + d :=
  Utf8.toNat_ofNat (by omega)

lemma isDigit_digit : ∀ d < 10, Lexer.isDigit (digit d) = true := by
  decide

lemma decimalValue_append (digits : List UInt8) {d : ℕ} (hd : d < 10) :
    Lexer.decimalValue (digits ++ [digit d]) = 10 * Lexer.decimalValue digits + d := by
  rw [Lexer.decimalValue, Lexer.decimalValue, List.foldl_append]
  simp only [List.foldl_cons, List.foldl_nil, toNat_digit hd]
  omega

/-- One digit more. -/
lemma IsDecimal.append {x d : ℕ} {digits : List UInt8} (h : IsDecimal x digits) (hx : 0 < x)
    (hd : d < 10) : IsDecimal (10 * x + d) (digits ++ [digit d]) where
  isDigit := by
    intro c hc
    rcases List.mem_append.mp hc with hc | hc
    · exact h.isDigit c hc
    · rw [List.mem_singleton.mp hc]
      exact isDigit_digit d hd
  value := by rw [decimalValue_append digits hd, h.value]
  length := by
    have hdiv : (10 * x + d) / 10 = x := by omega
    have hlog := Nat.log_of_one_lt_of_le (b := 10) (n := 10 * x + d) (by decide) (by omega)
    rw [List.length_append, h.length, hlog, hdiv]
    rfl
  head := by
    intro c hc hpos
    cases digits with
    | nil =>
      have hlength := h.length
      cases hlength
    | cons c' digits => exact h.head c hc hx

lemma isDecimal_digit {d : ℕ} (hd : d < 10) : IsDecimal d [digit d] where
  isDigit := List.forall_mem_singleton.mpr (isDigit_digit d hd)
  value := by
    have hvalue := decimalValue_append [] hd
    exact hvalue.trans (Nat.zero_add d)
  length := by
    rw [Nat.log_of_lt hd]
    rfl
  head := by
    intro c hc hpos h
    cases hc
    have htoNat := congrArg UInt8.toNat h
    rw [toNat_digit hd] at htoNat
    change 0x30 + d = 0x30 at htoNat
    omega

/-- The digits are written in front of what is written. -/
lemma writeDigits_eq (x : ℕ) (written : List UInt8) :
    ∃ digits, IsDecimal x digits ∧ writeDigits x written = digits ++ written := by
  induction x using Nat.strong_induction_on generalizing written with
  | _ x ih =>
    rw [writeDigits]
    split_ifs with h₁ h₂
    · obtain ⟨digits, hdigits, hwrite⟩ := ih (x / 100) (by omega)
        (digit (x % 100 / 10) :: digit (x % 100 % 10) :: written)
      have htens := hdigits.append (d := x % 100 / 10) (by omega) (by omega)
      have hones := htens.append (d := x % 100 % 10) (by omega) (by omega)
      have hx : 10 * (10 * (x / 100) + x % 100 / 10) + x % 100 % 10 = x := by omega
      refine ⟨_, hx ▸ hones, ?_⟩
      rw [hwrite, List.append_assoc, List.append_assoc]
      rfl
    · have htens := isDecimal_digit (d := x / 10) (by omega)
      have hones := htens.append (d := x % 10) (by omega) (by omega)
      have hx : 10 * (x / 10) + x % 10 = x := by omega
      exact ⟨_, hx ▸ hones, rfl⟩
    · exact ⟨_, isDecimal_digit (by omega), rfl⟩

/-- An integer is written with its sign and its digits, which fill the buffer. -/
lemma dump_integer_eq (x : ℤ) : ∃ digits, IsDecimal x.natAbs digits ∧
    dump_integer x = .ok ((if x < 0 then ['-'.toUInt8] else []) ++ digits) := by
  by_cases hzero : x = 0
  · subst hzero
    exact ⟨_, isDecimal_digit (d := 0) (by decide), rfl⟩
  · obtain ⟨digits, hdigits, hwrite⟩ := writeDigits_eq x.natAbs []
    rw [List.append_nil] at hwrite
    refine ⟨digits, hdigits, ?_⟩
    have hlength : digits.length = count_digits x.natAbs := by
      rw [hdigits.length, count_digits_eq]
    rw [dump_integer, if_neg hzero]
    simp only [hwrite, if_pos hlength]
    rfl

end Serializer

/-! ### Reading -/

namespace Lexer

variable {rest token_buffer input digits : List UInt8} {current : UInt8}

/-- Nothing that could belong to a number. -/
def Delimited (rest : List UInt8) : Prop := ∀ c ∈ rest.head?, NumberState.any1.next c = none

instance (rest : List UInt8) : Decidable (Delimited rest) :=
  inferInstanceAs (Decidable (∀ c ∈ rest.head?, _))

/-- The token of an integer. -/
def integerToken (x : ℤ) : Token := if 0 ≤ x then .value_unsigned x.toNat else .value_integer x

lemma scan_number_loop_digits {number_type : NumberType} (hdigits : ∀ d ∈ digits, isDigit d = true)
    (hrest : Delimited rest) :
    scan_number_loop .any1 number_type token_buffer (digits ++ rest) =
      some (number_type, token_buffer ++ digits, rest) := by
  induction digits generalizing token_buffer with
  | nil =>
    rw [List.nil_append, List.append_nil]
    cases rest with
    | nil => rfl
    | cons c rest =>
      rw [scan_number_loop, hrest c rfl]
      rfl
  | cons d digits ih =>
    obtain ⟨hd, hdigits⟩ := List.forall_mem_cons.mp hdigits
    have hnext : NumberState.any1.next d = some .any1 := if_pos hd
    rw [List.cons_append, scan_number_loop, hnext]
    simp only [NumberType.enter]
    rw [ih hdigits, List.append_assoc]
    rfl

lemma next_zero_eq_none {c : UInt8} (h : NumberState.any1.next c = none) :
    NumberState.zero.next c = none := by
  simp only [NumberState.next] at h ⊢
  split_ifs at h with hdigit hpoint hexponent
  rw [if_neg hpoint, if_neg hexponent]

lemma scan_number_loop_zero {number_type : NumberType} (hrest : Delimited rest) :
    scan_number_loop .zero number_type token_buffer rest =
      some (number_type, token_buffer, rest) := by
  cases rest with
  | nil => rfl
  | cons c rest =>
    rw [scan_number_loop, next_zero_eq_none (hrest c rfl)]
    rfl

lemma isDigit_iff : isDigit current = true ↔ 0x30 ≤ current.toNat ∧ current.toNat ≤ 0x39 := by
  rw [isDigit, Bool.and_eq_true, decide_eq_true_iff, decide_eq_true_iff]
  rfl

/-- A number without a sign. -/
lemma scan_number_unsigned {n : ℕ} (hn : n < 2 ^ 64) (hrest : Delimited rest)
    (hdigits : Serializer.IsDecimal n (current :: input)) :
    scan_number current (input ++ rest) = (.value_unsigned n, rest) := by
  obtain ⟨hcurrent, hinput⟩ := List.forall_mem_cons.mp hdigits.isDigit
  have hrange := isDigit_iff.mp hcurrent
  have hminus : current ≠ '-'.toUInt8 := by
    rintro rfl
    exact absurd hrange (by decide)
  have htoken : numberToken .unsigned (current :: input) = .value_unsigned n := by
    rw [numberToken]
    simp only [hdigits.value, if_pos hn]
  rw [scan_number, if_neg hminus]
  by_cases hzero : current = '0'.toUInt8
  · -- a zero is the only digit
    have hn' : n = 0 := by
      by_contra hne
      exact hdigits.head current rfl (Nat.pos_of_ne_zero hne) hzero
    have hlength := hdigits.length
    rw [hn'] at hlength
    have hinput : input = [] := List.eq_nil_of_length_eq_zero (Nat.succ.inj hlength)
    subst hinput
    rw [if_pos hzero, List.nil_append, scan_number_loop_zero hrest]
    exact congrArg (·, rest) htoken
  · rw [if_neg hzero, scan_number_loop_digits hinput hrest]
    exact congrArg (·, rest) htoken

/-- A number with a sign. -/
lemma scan_number_negative {n : ℕ} (hn : 0 < n ∧ n ≤ 2 ^ 63) (hrest : Delimited rest)
    (hdigits : Serializer.IsDecimal n digits) :
    scan_number '-'.toUInt8 (digits ++ rest) = (.value_integer (-n), rest) := by
  have htoken : numberToken .integer ('-'.toUInt8 :: digits) = .value_integer (-n) := by
    have hvalue : integerValue ('-'.toUInt8 :: digits) = -n := by
      rw [integerValue, if_pos rfl, hdigits.value]
    have hrange : -2 ^ 63 ≤ (-n : ℤ) ∧ (-n : ℤ) < 2 ^ 63 := by omega
    rw [numberToken]
    simp only [hvalue, if_pos hrange]
  cases digits with
  | nil =>
    have hlength := hdigits.length
    cases hlength
  | cons d digits =>
    obtain ⟨hd, hrestDigits⟩ := List.forall_mem_cons.mp hdigits.isDigit
    have hnext : NumberState.minus.next d = some .any1 := by
      rw [NumberState.next, if_neg (hdigits.head d rfl hn.1), if_pos hd]
    rw [scan_number, if_pos rfl, List.cons_append, scan_number_loop, hnext]
    simp only [NumberType.enter]
    rw [scan_number_loop_digits hrestDigits hrest]
    exact congrArg (·, rest) htoken

/-- What the serializer writes of an integer is read as its token. -/
lemma scan_number_integer {x : ℤ} (hx : -2 ^ 63 ≤ x ∧ x < 2 ^ 64) :
    ∃ text, Serializer.dump_integer x = .ok text ∧
      ∃ current input, text = current :: input ∧ (current = '-'.toUInt8 ∨ isDigit current = true) ∧
        (∀ b ∈ text, 0x20 ≤ b.toNat ∧ b.toNat < 0x80) ∧
        ∀ rest, Delimited rest → scan_number current (input ++ rest) = (integerToken x, rest) := by
  obtain ⟨digits, hdigits, hdump⟩ := Serializer.dump_integer_eq x
  have hascii : ∀ b ∈ digits, 0x20 ≤ b.toNat ∧ b.toNat < 0x80 := by
    intro b hb
    have hrange := isDigit_iff.mp (hdigits.isDigit b hb)
    omega
  refine ⟨_, hdump, ?_⟩
  by_cases hneg : x < 0
  · simp only [if_pos hneg, List.singleton_append]
    refine ⟨_, _, rfl, .inl rfl, ?_, fun rest hrest => ?_⟩
    · exact List.forall_mem_cons.mpr ⟨by decide, hascii⟩
    · have hx' : (-(x.natAbs : ℤ)) = x := by omega
      rw [scan_number_negative (by omega) hrest hdigits, hx', integerToken, if_neg (by omega)]
  · simp only [if_neg hneg, List.nil_append]
    cases digits with
    | nil =>
      have hlength := hdigits.length
      cases hlength
    | cons current input =>
      refine ⟨current, input, rfl, .inr (hdigits.isDigit _ List.mem_cons_self), hascii,
        fun rest hrest => ?_⟩
      rw [scan_number_unsigned (by omega) hrest hdigits, integerToken, if_pos (by omega)]
      congr 2
      omega

end Lexer

end ServerUnit
