import ServerUnit.JsonText.Serializer
import ServerUnit.JsonText.Lexer

/-!
# Strings as texts

The serializer takes exactly the bytes of texts, and writes each character by itself. The lexer reads
from what was written for a character the bytes of that character.
-/

namespace ServerUnit

open Lib

namespace Serializer

variable {s written text : List UInt8} {codepoint state : ℕ}

/-! ### The automaton -/

/-- The ranges of bytes that are awaited in a state. -/
def awaited : List (List (ℕ × ℕ)) :=
  [[], [(0x80, 0xBF)], [(0x80, 0xBF), (0x80, 0xBF)], [(0xA0, 0xBF), (0x80, 0xBF)],
    [(0x80, 0x9F), (0x80, 0xBF)], [(0x90, 0xBF), (0x80, 0xBF), (0x80, 0xBF)],
    [(0x80, 0xBF), (0x80, 0xBF), (0x80, 0xBF)], [(0x80, 0x8F), (0x80, 0xBF), (0x80, 0xBF)]]

/-- The state in which bytes of these ranges are awaited. -/
def stateOf (rs : List (ℕ × ℕ)) : ℕ :=
  ((awaited.zip [0, 2, 3, 4, 5, 6, 7, 8]).lookup rs).getD UTF8_REJECT

/-- The state after a byte. -/
def stateAfter (rs : List (ℕ × ℕ)) (b : ℕ) : ℕ :=
  match rs with
  | []      => (Utf8.ranges b).elim UTF8_REJECT stateOf
  | r :: rs => if r.1 ≤ b ∧ b ≤ r.2 then stateOf rs else UTF8_REJECT

lemma utf8d_eq : ∀ rs ∈ awaited, ∀ b < 256,
    utf8d.getD (256 + stateOf rs * 16 + utf8d.getD b 0) 0 = stateAfter rs b := by
  decide +kernel

lemma stateOf_cases : ∀ rs ∈ awaited,
    stateOf rs ≠ UTF8_REJECT ∧ (stateOf rs = UTF8_ACCEPT ↔ rs = []) := by
  decide

lemma tail_mem_awaited : ∀ rs ∈ awaited, rs.tail ∈ awaited := by
  decide

lemma ranges_mem_awaited : ∀ b < 256, ∀ rs ∈ Utf8.ranges b, rs ∈ awaited := by
  decide +kernel

lemma decode_fst {rs : List (ℕ × ℕ)} (hrs : rs ∈ awaited) (byte : UInt8) :
    (decode (stateOf rs) codepoint byte).1 = stateAfter rs byte.toNat :=
  utf8d_eq rs hrs byte.toNat byte.toNat_lt

/-- The code point after more bytes of a character. -/
def codepointAfter (codepoint : ℕ) (l : List UInt8) : ℕ :=
  l.foldl (fun codepoint b => codepoint * 64 + b.toNat % 64) codepoint

lemma decode_snd {rs : List (ℕ × ℕ)} (hrs : rs ∈ awaited) (hne : rs ≠ []) (byte : UInt8) :
    (decode (stateOf rs) codepoint byte).2 = codepoint * 64 + byte.toNat % 64 := by
  have hstate : stateOf rs ≠ UTF8_ACCEPT := mt (stateOf_cases rs hrs).2.mp hne
  have hand : byte.toNat &&& 0x3F = byte.toNat % 64 := Nat.and_two_pow_sub_one_eq_mod _ 6
  rw [decode]
  dsimp only
  rw [if_pos hstate, hand, Nat.or_comm, ← Nat.shiftLeft_add_eq_or_of_lt (Nat.mod_lt _ (by decide)),
    Nat.shiftLeft_eq]

/-- The code point after the first byte of a character. -/
def firstCodepoint (b : ℕ) : ℕ := (0xFF >>> utf8d.getD b 0) &&& b

lemma firstCodepoint_eq : (∀ b < 0x80, firstCodepoint b = b) ∧
    (∀ d < 32, 2 ≤ d → firstCodepoint (0xC0 + d) = d) ∧
    (∀ d < 16, firstCodepoint (0xE0 + d) = d) ∧ ∀ d < 5, firstCodepoint (0xF0 + d) = d := by
  decide +kernel

/-- The automaton computes the code point of a character. -/
lemma codepointAfter_encode {n : ℕ} (hn : n.isValidChar) {b : UInt8} {l : List UInt8}
    (h : Utf8.encode n = b :: l) : codepointAfter (firstCodepoint b.toNat) l = n := by
  obtain ⟨hone, htwo, hthree, hfour⟩ := firstCodepoint_eq
  have hcont : ∀ k, (UInt8.ofNat (0x80 + k % 64)).toNat % 64 = k % 64 := by
    intro k
    rw [Utf8.toNat_ofNat (by omega)]
    omega
  rw [Utf8.encode] at h
  split_ifs at h with h₁ h₂ h₃
  · obtain ⟨rfl, rfl⟩ := List.cons.inj h
    rw [Utf8.toNat_ofNat (by omega), hone n h₁]
    rfl
  · obtain ⟨rfl, rfl⟩ := List.cons.inj h
    rw [Utf8.toNat_ofNat (by omega), htwo _ (by omega) (by omega)]
    simp only [codepointAfter, List.foldl, hcont]
    omega
  · obtain ⟨rfl, rfl⟩ := List.cons.inj h
    rw [Utf8.toNat_ofNat (by omega), hthree _ (by omega)]
    simp only [codepointAfter, List.foldl, hcont]
    omega
  · obtain ⟨rfl, rfl⟩ := List.cons.inj h
    have hlt : n / 262144 < 5 := by
      have hlt : n < 0x110000 := by
        rcases hn with hn | hn <;> omega
      omega
    rw [Utf8.toNat_ofNat (by omega), hfour _ hlt]
    simp only [codepointAfter, List.foldl, hcont]
    omega

/-! ### The loop -/

/-- What is written for a character. -/
def escape (c : Char) : List UInt8 :=
  if c.toNat < 0x80 then escaped c.toNat (.ofNat c.toNat) else Utf8.encode c.toNat

lemma escaped_of_le {byte : UInt8} (h : 0x80 ≤ codepoint) : escaped codepoint byte = [byte] := by
  rw [escaped]
  simp only [show codepoint ≠ 0x08 by omega, show codepoint ≠ 0x09 by omega,
    show codepoint ≠ 0x0A by omega, show codepoint ≠ 0x0C by omega, show codepoint ≠ 0x0D by omega,
    show codepoint ≠ 0x22 by omega, show codepoint ≠ 0x5C by omega,
    show ¬ codepoint ≤ 0x1F by omega, if_false]

/-- One byte that is awaited. -/
lemma dump_escaped_loop_cons {rs : List (ℕ × ℕ)} (hrs : rs ∈ awaited) {byte : UInt8}
    {rs' : List (ℕ × ℕ)} (hrs' : rs' ∈ awaited) (hafter : stateAfter rs byte.toNat = stateOf rs') :
    dump_escaped_loop (stateOf rs) codepoint written (byte :: s) =
      dump_escaped_loop (stateOf rs') (decode (stateOf rs) codepoint byte).2
        (written ++ if rs' = [] then escaped (decode (stateOf rs) codepoint byte).2 byte
          else [byte]) s := by
  obtain ⟨hreject, haccept⟩ := stateOf_cases rs' hrs'
  rw [dump_escaped_loop]
  simp only [decode_fst hrs, hafter, haccept, if_neg hreject]
  split_ifs <;> rfl

/-- The bytes that are awaited end a character. -/
lemma dump_escaped_loop_awaited {rs : List (ℕ × ℕ)} {l : List UInt8} (hrs : rs ∈ awaited)
    (hne : rs ≠ []) (hl : List.Forall₂ Utf8.InRange rs l)
    (hcodepoint : 0x80 ≤ codepointAfter codepoint l) :
    dump_escaped_loop (stateOf rs) codepoint written (l ++ s) =
      dump_escaped_loop (stateOf []) (codepointAfter codepoint l) (written ++ l) s := by
  induction hl generalizing codepoint written with
  | nil => exact absurd rfl hne
  | @cons r b rs l hr hl ih =>
    have htail : rs ∈ awaited := tail_mem_awaited _ hrs
    have hafter : stateAfter (r :: rs) b.toNat = stateOf rs := if_pos hr
    rw [List.cons_append, dump_escaped_loop_cons hrs htail hafter, decode_snd hrs hne]
    by_cases hnil : rs = []
    · subst hnil
      cases hl
      rw [if_pos rfl]
      exact congrArg (fun x => dump_escaped_loop _ _ (written ++ x) s) (escaped_of_le hcodepoint)
    · rw [if_neg hnil, ih htail hnil hcodepoint, List.append_assoc]
      rfl

lemma decode_first (b : UInt8) : (decode (stateOf []) codepoint b).2 = firstCodepoint b.toNat :=
  rfl

/-- A character is written by itself. -/
lemma dump_escaped_loop_char (codepoint : ℕ) (written s : List UInt8) (c : Char) : ∃ codepoint',
    dump_escaped_loop (stateOf []) codepoint written (String.utf8EncodeChar c ++ s) =
      dump_escaped_loop (stateOf []) codepoint' (written ++ escape c) s := by
  obtain ⟨b, l, hencode, rs, hranges, hl⟩ := Utf8.ranges_encode c.valid
  change Utf8.encode c.toNat = b :: l at hencode
  have hnil : ([] : List (ℕ × ℕ)) ∈ awaited := List.mem_cons_self
  have hrs : rs ∈ awaited := ranges_mem_awaited _ b.toNat_lt rs hranges
  have hafter : stateAfter [] b.toNat = stateOf rs := by
    rw [stateAfter, hranges]
    rfl
  have hcodepoint := codepointAfter_encode c.valid hencode
  rw [Utf8.utf8EncodeChar_eq, hencode, List.cons_append, dump_escaped_loop_cons hnil hrs hafter,
    decode_first]
  cases hl with
  | nil =>
    -- one byte
    have hc : c.toNat < 0x80 := by
      by_contra hc
      have hlength := congrArg List.length hencode
      rw [Utf8.encode, if_neg hc] at hlength
      split_ifs at hlength <;> cases hlength
    have hb : b = .ofNat c.toNat := by
      rw [Utf8.encode, if_pos hc] at hencode
      exact (List.cons.inj hencode).1.symm
    refine ⟨firstCodepoint b.toNat, ?_⟩
    rw [if_pos rfl, escape, if_pos hc, ← hb]
    exact congrArg (fun n => dump_escaped_loop _ _ (written ++ escaped n b) s) hcodepoint
  | @cons r b₁ rs l hr hl =>
    have hc : 0x80 ≤ c.toNat := by
      by_contra hc
      rw [Utf8.encode, if_pos (by omega)] at hencode
      cases hencode
    refine ⟨codepointAfter (firstCodepoint b.toNat) (b₁ :: l), ?_⟩
    rw [if_neg (List.cons_ne_nil _ _), dump_escaped_loop_awaited hrs (List.cons_ne_nil _ _)
      (.cons hr hl) (hc.trans_eq hcodepoint.symm), escape, if_neg (by omega), hencode,
      List.append_assoc]
    rfl

/-- The texts of strings. -/
lemma dump_escaped_loop_chars (codepoint : ℕ) (written s : List UInt8) (l : List Char) :
    ∃ codepoint',
    dump_escaped_loop (stateOf []) codepoint written (l.flatMap String.utf8EncodeChar ++ s) =
      dump_escaped_loop (stateOf []) codepoint' (written ++ l.flatMap escape) s := by
  induction l generalizing codepoint written with
  | nil => exact ⟨codepoint, by rw [List.flatMap_nil, List.flatMap_nil, List.append_nil]; rfl⟩
  | cons c l ih =>
    obtain ⟨codepoint₁, h₁⟩ := dump_escaped_loop_char codepoint written
      (l.flatMap String.utf8EncodeChar ++ s) c
    obtain ⟨codepoint₂, h₂⟩ := ih codepoint₁ (written ++ escape c)
    refine ⟨codepoint₂, ?_⟩
    rw [List.flatMap_cons, List.flatMap_cons, List.append_assoc, h₁, h₂, List.append_assoc]

lemma dump_escaped_bytes (t : String) :
    dump_escaped (Utf8.bytes t) = .ok (t.toList.flatMap escape) := by
  obtain ⟨codepoint', h⟩ := dump_escaped_loop_chars 0 [] [] t.toList
  rw [List.append_nil] at h
  exact h

lemma dump_escaped_loop_reject {rs : List (ℕ × ℕ)} (hrs : rs ∈ awaited) {byte : UInt8}
    (hafter : stateAfter rs byte.toNat = UTF8_REJECT) :
    dump_escaped_loop (stateOf rs) codepoint written (byte :: s) = .error .exception := by
  rw [dump_escaped_loop]
  simp only [decode_fst hrs, hafter]
  rfl

/-- A byte that is not rejected begins a character, or is in the range that is awaited. -/
lemma exists_stateAfter {rs : List (ℕ × ℕ)} (hrs : rs ∈ awaited) {byte : UInt8}
    (h : dump_escaped_loop (stateOf rs) codepoint written (byte :: s) = .ok text) :
    ∃ rs' ∈ awaited, stateAfter rs byte.toNat = stateOf rs' ∧
      (rs = [] ∧ Utf8.ranges byte.toNat = some rs' ∨ ∃ r, rs = r :: rs' ∧ Utf8.InRange r byte) := by
  have hreject : stateAfter rs byte.toNat ≠ UTF8_REJECT := by
    intro hafter
    rw [dump_escaped_loop_reject hrs hafter] at h
    cases h
  cases rs with
  | nil =>
    cases hranges : Utf8.ranges byte.toNat with
    | none => exact absurd (by rw [stateAfter, hranges]; rfl) hreject
    | some rs' =>
      refine ⟨rs', ranges_mem_awaited _ byte.toNat_lt rs' hranges, ?_, .inl ⟨rfl, rfl⟩⟩
      rw [stateAfter, hranges]
      rfl
  | cons r rs =>
    by_cases hin : Utf8.InRange r byte
    · exact ⟨rs, tail_mem_awaited _ hrs, if_pos hin, .inr ⟨r, rfl, hin⟩⟩
    · exact absurd (if_neg hin) hreject

/-- What is taken is the rest of a character, and then characters. -/
lemma exists_of_dump_escaped_loop {rs : List (ℕ × ℕ)} (hrs : rs ∈ awaited)
    (h : dump_escaped_loop (stateOf rs) codepoint written s = .ok text) :
    ∃ l, ∃ t : List Char, s = l ++ t.flatMap String.utf8EncodeChar ∧
      List.Forall₂ Utf8.InRange rs l := by
  induction s generalizing codepoint written rs with
  | nil =>
    rw [dump_escaped_loop] at h
    split_ifs at h with haccept
    rw [(stateOf_cases rs hrs).2.mp haccept]
    exact ⟨[], [], rfl, .nil⟩
  | cons byte s ih =>
    obtain ⟨rs', hrs', hstate, hrange⟩ := exists_stateAfter hrs h
    rw [dump_escaped_loop_cons hrs hrs' hstate] at h
    obtain ⟨l, t, rfl, hl⟩ := ih hrs' h
    rcases hrange with ⟨rfl, hranges⟩ | ⟨r, rfl, hin⟩
    · obtain ⟨n, hn, hencode⟩ := Utf8.encode_of_ranges hranges hl
      obtain ⟨c, rfl⟩ := Utf8.exists_toNat_eq hn
      refine ⟨[], c :: t, ?_, .nil⟩
      rw [List.flatMap_cons, Utf8.utf8EncodeChar_eq, hencode]
      rfl
    · exact ⟨byte :: l, t, rfl, .cons hin hl⟩

/-- The serializer takes exactly the bytes of texts. -/
lemma exists_dump_escaped_iff {s : List UInt8} : (∃ text, dump_escaped s = .ok text) ↔
    ∃ t, Utf8.bytes t = s := by
  constructor
  · rintro ⟨text, h⟩
    have hnil : ([] : List (ℕ × ℕ)) ∈ awaited := List.mem_cons_self
    obtain ⟨l, t, rfl, hl⟩ := exists_of_dump_escaped_loop hnil h
    cases hl
    exact ⟨String.ofList t, Utf8.bytes_ofList t⟩
  · rintro ⟨t, rfl⟩
    exact ⟨_, dump_escaped_bytes t⟩

end Serializer

/-! ### Reading -/

namespace Lexer

variable {rest token_buffer input added input' : List UInt8} {current : UInt8}

lemma next_byte_in_range_append {rs : List (ℕ × ℕ)} {l : List UInt8}
    (hl : List.Forall₂ Utf8.InRange rs l) (rest : List UInt8) :
    next_byte_in_range rs (l ++ rest) = some (l, rest) := by
  induction hl with
  | nil => rfl
  | cons hr hl ih => rw [List.cons_append, next_byte_in_range, if_pos hr, ih, Option.map_some]

/-- A character without an escape. -/
lemma scan_char_ranges {rs : List (ℕ × ℕ)} {l : List UInt8} (hcontrol : 0x1F < current.toNat)
    (hbackslash : current.toNat ≠ 0x5C) (hrs : Utf8.ranges current.toNat = some rs)
    (hl : List.Forall₂ Utf8.InRange rs l) (rest : List UInt8) :
    scan_char current (l ++ rest) = some (current :: l, rest) := by
  have hne : current ≠ '\\'.toUInt8 := fun h => hbackslash (congrArg UInt8.toNat h)
  have hle : ¬ current ≤ 0x1F := not_le.mpr hcontrol
  rw [scan_char, if_neg hne, if_neg hle, hrs]
  simp only [next_byte_in_range_append hl rest, Option.map_some]

lemma hexValue_digit : ∀ d < 16,
    hexValue (if d < 10 then .ofNat (0x30 + d) else .ofNat (0x57 + d)) = some d := by
  decide

lemma get_codepoint_hexDigits {n : ℕ} (hn : n < 0x10000) (rest : List UInt8) :
    get_codepoint (Serializer.hexDigits n ++ rest) = some (n, rest) := by
  have hdigit : ∀ k : ℕ, hexValue (if k % 16 < 10 then .ofNat (0x30 + k % 16)
      else .ofNat (0x57 + k % 16)) = some (k % 16) :=
    fun k => hexValue_digit _ (Nat.mod_lt _ (by decide))
  rw [get_codepoint, Serializer.hexDigits]
  simp only [List.map_cons, List.map_nil, List.cons_append, List.nil_append, get_codepoint_loop,
    hdigit, Nat.shiftLeft_eq]
  congr 2
  omega

/-- A unicode escape for a code point below the surrogates. -/
lemma scan_unicode_hexDigits {n : ℕ} (hn : n < 0xD800) (rest : List UInt8) :
    scan_unicode (Serializer.hexDigits n ++ rest) = some (Utf8.encode n, rest) := by
  rw [scan_unicode, get_codepoint_hexDigits (by omega)]
  simp only [show ¬ (0xD800 ≤ n ∧ n ≤ 0xDBFF) by omega, show ¬ (0xDC00 ≤ n ∧ n ≤ 0xDFFF) by omega,
    if_false]

/-- What was written for a character is read as its bytes. -/
lemma scan_char_escape (c : Char) (rest : List UInt8) : ∃ b l, Serializer.escape c = b :: l ∧
    b ≠ '"'.toUInt8 ∧ scan_char b (l ++ rest) = some (Utf8.encode c.toNat, rest) := by
  rw [Serializer.escape]
  split_ifs with hc
  · rw [Serializer.escaped]
    split_ifs with h₁ h₂ h₃ h₄ h₅ h₆ h₇ hcontrol
    · rw [h₁]
      exact ⟨_, _, rfl, by decide, rfl⟩
    · rw [h₂]
      exact ⟨_, _, rfl, by decide, rfl⟩
    · rw [h₃]
      exact ⟨_, _, rfl, by decide, rfl⟩
    · rw [h₄]
      exact ⟨_, _, rfl, by decide, rfl⟩
    · rw [h₅]
      exact ⟨_, _, rfl, by decide, rfl⟩
    · rw [h₆]
      exact ⟨_, _, rfl, by decide, rfl⟩
    · rw [h₇]
      exact ⟨_, _, rfl, by decide, rfl⟩
    · refine ⟨_, _, rfl, by decide, ?_⟩
      exact scan_unicode_hexDigits (by omega) rest
    · have hbyte := Utf8.toNat_ofNat (k := c.toNat) (by omega)
      refine ⟨_, [], rfl, fun h => h₆ ?_, ?_⟩
      · rw [← hbyte, h]
        rfl
      · rw [Utf8.encode, if_pos hc]
        have hrs : Utf8.ranges (UInt8.ofNat c.toNat).toNat = some [] := by
          rw [hbyte, Utf8.ranges, if_pos (by omega)]
        exact scan_char_ranges (by omega) (by omega) hrs .nil rest
  · obtain ⟨b, l, hencode, rs, hranges, hl⟩ := Utf8.ranges_encode c.valid
    change Utf8.encode c.toNat = b :: l at hencode
    have hb := Utf8.le_of_mem_encode c.valid (le_of_not_gt hc) b (hencode ▸ List.mem_cons_self)
    refine ⟨b, l, hencode, fun h => ?_, ?_⟩
    · rw [h] at hb
      exact absurd hb (by decide)
    · rw [hencode]
      exact scan_char_ranges (by omega) (by omega) hranges hl rest

lemma scan_string_quote (token_buffer rest : List UInt8) :
    scan_string token_buffer ('"'.toUInt8 :: rest) = some (token_buffer, rest) := by
  rw [scan_string, if_pos rfl]

lemma scan_string_cons (hquote : current ≠ '"'.toUInt8)
    (h : scan_char current input = some (added, input')) :
    scan_string token_buffer (current :: input) = scan_string (token_buffer ++ added) input' := by
  rw [scan_string, if_neg hquote]
  split
  · next hnone => cases hnone.symm.trans h
  · next hsome =>
    cases hsome.symm.trans h
    rfl

/-- What was written for a text is read as its bytes. -/
lemma scan_string_escape (l : List Char) (token_buffer rest : List UInt8) :
    scan_string token_buffer (l.flatMap Serializer.escape ++ '"'.toUInt8 :: rest) =
      some (token_buffer ++ l.flatMap String.utf8EncodeChar, rest) := by
  induction l generalizing token_buffer with
  | nil =>
    rw [List.flatMap_nil, List.flatMap_nil, List.append_nil]
    exact scan_string_quote token_buffer rest
  | cons c l ih =>
    obtain ⟨b, escapes, hescape, hquote, hchar⟩ := scan_char_escape c
      (l.flatMap Serializer.escape ++ '"'.toUInt8 :: rest)
    rw [List.flatMap_cons, List.append_assoc, hescape, List.cons_append,
      scan_string_cons hquote hchar, ih, List.flatMap_cons, Utf8.utf8EncodeChar_eq, List.append_assoc]

/-- A string that was written is read as its token. -/
lemma scan_quoted_string (s : String) (rest : List UInt8) :
    scan_quoted (s.toList.flatMap Serializer.escape ++ '"'.toUInt8 :: rest) =
      (.value_string s, rest) := by
  have hbytes : Utf8.ofBytes ([] ++ s.toList.flatMap String.utf8EncodeChar) = some s :=
    Utf8.ofBytes_eq_some.mpr rfl
  rw [scan_quoted, scan_string_escape]
  simp only [hbytes]

/-! ### What is read is text -/

lemma hexValue_lt : ∀ n < 256, ∀ d ∈ hexValue (.ofNat n), d < 16 := by
  decide +kernel

lemma get_codepoint_loop_le {factors : List ℕ} {codepoint n : ℕ}
    (h : get_codepoint_loop codepoint factors input = some (n, rest)) :
    n ≤ codepoint + (factors.map fun factor => 15 <<< factor).sum := by
  induction factors generalizing codepoint input with
  | nil =>
    cases h
    exact le_rfl
  | cons factor factors ih =>
    cases input with
    | nil => cases h
    | cons current input =>
      rw [get_codepoint_loop] at h
      split at h
      · cases h
      · next digit hdigit =>
        have hlt : digit < 16 := by
          refine hexValue_lt current.toNat current.toNat_lt digit ?_
          rw [UInt8.ofNat_toNat]
          exact hdigit
        have hle : digit <<< factor ≤ 15 <<< factor := by
          rw [Nat.shiftLeft_eq, Nat.shiftLeft_eq]
          exact Nat.mul_le_mul_right _ (Nat.le_of_lt_succ hlt)
        have hrest := ih h
        rw [List.map_cons, List.sum_cons]
        omega

lemma get_codepoint_lt {n : ℕ} (h : get_codepoint input = some (n, rest)) : n < 0x10000 :=
  Nat.lt_succ_of_le (get_codepoint_loop_le h)

lemma scan_low_surrogate_valid {codepoint1 codepoint : ℕ}
    (h : scan_low_surrogate codepoint1 input = some (codepoint, rest))
    (hhigh : 0xD800 ≤ codepoint1 ∧ codepoint1 ≤ 0xDBFF) : codepoint.isValidChar := by
  unfold scan_low_surrogate at h
  split at h
  · split_ifs at h
    split at h
    · cases h
    · split_ifs at h
      obtain ⟨rfl, -⟩ := Prod.mk.inj (Option.some.inj h)
      rw [Nat.isValidChar, Nat.shiftLeft_eq]
      omega
  · cases h

lemma scan_unicode_text (h : scan_unicode input = some (added, rest)) :
    ∃ t, Utf8.bytes t = added := by
  rw [scan_unicode] at h
  split at h
  · cases h
  · next codepoint1 input' hcodepoint =>
    have hlt := get_codepoint_lt hcodepoint
    split_ifs at h with hhigh hlow
    · obtain ⟨⟨codepoint, rest'⟩, hsurrogate, heq⟩ := Option.map_eq_some_iff.mp h
      cases heq
      exact Utf8.exists_bytes_encode (scan_low_surrogate_valid hsurrogate hhigh)
    · cases h
      refine Utf8.exists_bytes_encode ?_
      rw [Nat.isValidChar]
      omega

lemma unescape_lt : ∀ n < 256, ∀ c ∈ unescape (.ofNat n), c.toNat < 0x80 := by
  decide +kernel

lemma scan_escape_text (h : scan_escape input = some (added, rest)) :
    ∃ t, Utf8.bytes t = added := by
  unfold scan_escape at h
  split at h
  · cases h
  · next current input' =>
    split_ifs at h
    · exact scan_unicode_text h
    · obtain ⟨c, hc, heq⟩ := Option.map_eq_some_iff.mp h
      cases heq
      refine Utf8.exists_bytes_eq (List.forall_mem_singleton.mpr ?_)
      refine unescape_lt current.toNat current.toNat_lt c ?_
      rw [UInt8.ofNat_toNat]
      exact hc

lemma next_byte_in_range_forall {rs : List (ℕ × ℕ)}
    (h : next_byte_in_range rs input = some (added, rest)) : List.Forall₂ Utf8.InRange rs added := by
  induction rs generalizing input added with
  | nil =>
    cases h
    exact .nil
  | cons r rs ih =>
    cases input with
    | nil => cases h
    | cons current input =>
      rw [next_byte_in_range] at h
      split_ifs at h with hr
      obtain ⟨⟨added', rest'⟩, hnext, heq⟩ := Option.map_eq_some_iff.mp h
      cases heq
      exact .cons hr (ih hnext)

lemma scan_char_text (h : scan_char current input = some (added, input')) :
    ∃ t, Utf8.bytes t = added := by
  rw [scan_char] at h
  split_ifs at h
  · exact scan_escape_text h
  · split at h
    · cases h
    · next rs hrs =>
      obtain ⟨⟨added', rest'⟩, hnext, heq⟩ := Option.map_eq_some_iff.mp h
      cases heq
      obtain ⟨n, hn, hencode⟩ := Utf8.encode_of_ranges hrs (next_byte_in_range_forall hnext)
      exact hencode ▸ Utf8.exists_bytes_encode hn

/-- What is collected is a text. -/
lemma scan_string_text (h : scan_string token_buffer input = some (added, rest))
    (ht : ∃ t, Utf8.bytes t = token_buffer) : ∃ t, Utf8.bytes t = added := by
  fun_induction scan_string token_buffer input with
  | case1 => cases h
  | case2 token_buffer input =>
    cases h
    exact ht
  | case3 token_buffer current input hne hchar => cases h
  | case4 token_buffer current input hne added input' hchar ih =>
    obtain ⟨t, rfl⟩ := ht
    obtain ⟨t', rfl⟩ := scan_char_text hchar
    exact ih h ⟨t ++ t', Utf8.bytes_append t t'⟩

/-- The bytes that the serializer takes for a string are those that the lexer can read, which are
the texts; and what is written of them is read as them. -/
theorem scan_string_dump_escaped (s : List UInt8) :
    ((∃ text, Serializer.dump_escaped s = .ok text) ↔ ∃ t, Utf8.bytes t = s) ∧
      ((∃ input rest, scan_string [] input = some (s, rest)) ↔ ∃ t, Utf8.bytes t = s) ∧
        ∀ text rest, Serializer.dump_escaped s = .ok text →
          scan_string [] (text ++ '"'.toUInt8 :: rest) = some (s, rest) := by
  have hread : ∀ (t : String) (rest : List UInt8),
      scan_string [] (t.toList.flatMap Serializer.escape ++ '"'.toUInt8 :: rest) =
        some (Utf8.bytes t, rest) := fun t rest => scan_string_escape t.toList [] rest
  refine ⟨Serializer.exists_dump_escaped_iff, ⟨?_, ?_⟩, fun text rest h => ?_⟩
  · rintro ⟨input, rest, h⟩
    exact scan_string_text h ⟨"", rfl⟩
  · rintro ⟨t, rfl⟩
    exact ⟨_, [], hread t []⟩
  · obtain ⟨t, rfl⟩ := Serializer.exists_dump_escaped_iff.mp ⟨text, h⟩
    rw [Serializer.dump_escaped_bytes, Except.ok.injEq] at h
    rw [← h]
    exact hread t rest

end Lexer

end ServerUnit
