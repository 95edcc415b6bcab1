import ServerUnit.JsonText.Strings
import ServerUnit.JsonText.Numbers
import ServerUnit.JsonText.Stored
import Mathlib.Data.List.TakeWhile
import Mathlib.Tactic.IntervalCases

/-!
# Round trips between values and texts

The text of a value is read as the tokens of the value, and these are parsed to the value.
-/

namespace ServerUnit

open Lib

/-! ### Lines -/

/-- Printable text in UTF-8. -/
structure IsLine (text : List UInt8) : Prop where
  printable : ∀ b ∈ text, 0x20 ≤ b.toNat
  utf8 : ∃ t, Utf8.bytes t = text

namespace IsLine

variable {text text' : List UInt8}

lemma nil : IsLine [] := ⟨fun _ hb => (List.not_mem_nil hb).elim, "", rfl⟩

lemma append (h : IsLine text) (h' : IsLine text') : IsLine (text ++ text') where
  printable := List.forall_mem_append.mpr ⟨h.printable, h'.printable⟩
  utf8 := by
    obtain ⟨t, rfl⟩ := h.utf8
    obtain ⟨t', rfl⟩ := h'.utf8
    exact ⟨t ++ t', Utf8.bytes_append t t'⟩

lemma of_ascii (h : ∀ b ∈ text, 0x20 ≤ b.toNat ∧ b.toNat < 0x80) : IsLine text :=
  ⟨fun b hb => (h b hb).1, Utf8.exists_bytes_eq fun b hb => (h b hb).2⟩

lemma cons {b : UInt8} (hb : 0x20 ≤ b.toNat ∧ b.toNat < 0x80) (h : IsLine text) :
    IsLine (b :: text) :=
  (of_ascii (List.forall_mem_singleton.mpr hb)).append h

end IsLine

namespace Serializer

lemma escaped_ascii : ∀ n < 0x80, ∀ b ∈ escaped n (.ofNat n), 0x20 ≤ b.toNat ∧ b.toNat < 0x80 := by
  decide +kernel

lemma isLine_escape (c : Char) : IsLine (escape c) := by
  rw [escape]
  split_ifs with hc
  · exact .of_ascii (escaped_ascii c.toNat hc)
  · refine ⟨fun b hb => ?_, String.ofList [c], ?_⟩
    · have hle := Utf8.le_of_mem_encode c.valid (le_of_not_gt hc) b hb
      omega
    · rw [Utf8.bytes_ofList, ← Utf8.utf8EncodeChar_eq]
      exact List.append_nil _

lemma isLine_escapes (l : List Char) : IsLine (l.flatMap escape) := by
  induction l with
  | nil => exact .nil
  | cons c l ih => exact (isLine_escape c).append ih

/-- The text of a string. -/
def quoted (s : String) : List UInt8 :=
  '"'.toUInt8 :: s.toList.flatMap escape ++ ['"'.toUInt8]

lemma dump_string_eq (s : String) : dump_string s = .ok (quoted s) := by
  rw [dump_string, dump_escaped_bytes, Outcome.ok_bind]
  rfl

lemma isLine_quoted (s : String) : IsLine (quoted s) :=
  ((isLine_escapes s.toList).cons (by decide)).append (IsLine.nil.cons (by decide))

end Serializer

/-! ### Tokens -/

namespace Json

mutual

/-- The tokens of a value. -/
def tokens : Json → List Token
  | .null       => [.literal_null]
  | .bool true  => [.literal_true]
  | .bool false => [.literal_false]
  | .int n      => [Lexer.integerToken n]
  | .float q    => [.value_float q]
  | .str s      => [.value_string s]
  | .arr l      => .begin_array :: elementTokens l ++ [.end_array]
  | .obj fields => .begin_object :: memberTokens fields ++ [.end_object]

def elementTokens : List Json → List Token
  | []     => []
  | [j]    => j.tokens
  | j :: l => j.tokens ++ .value_separator :: elementTokens l

def memberTokens : List (String × Json) → List Token
  | []                 => []
  | [(key, j)]         => .value_string key :: .name_separator :: j.tokens
  | (key, j) :: fields =>
    .value_string key :: .name_separator :: j.tokens ++ .value_separator :: memberTokens fields

end

mutual

/-- No part of the value is a floating-point number. -/
def NoFloats : Json → Prop
  | .float _ => False
  | .arr l => NoFloatsAll l
  | .obj fields => NoFloatsMembers fields
  | .null | .bool _ | .int _ | .str _ => True

def NoFloatsAll : List Json → Prop
  | [] => True
  | j :: l => j.NoFloats ∧ NoFloatsAll l

def NoFloatsMembers : List (String × Json) → Prop
  | [] => True
  | (_, j) :: fields => j.NoFloats ∧ NoFloatsMembers fields

end

end Json

namespace Lexer

variable {current : UInt8} {input input' text : List UInt8} {token : Token}

lemma tokens_nil : tokens [] = [.end_of_input] := by
  have hscan : (scan []).1 = .end_of_input := rfl
  rw [tokens, dif_pos hscan]

/-- The first token, and what is read after it. -/
lemma tokens_cons (hspace : isWhitespace current = false)
    (h : scan_token current input = (token, input')) (hend : token ≠ .end_of_input)
    (herror : token ≠ .parse_error) : tokens (current :: input) = token :: tokens input' := by
  have hdrop : (current :: input).dropWhile isWhitespace = current :: input := by
    rw [List.dropWhile_cons, hspace]
    rfl
  have hscan : scan (current :: input) = (token, input') := by
    rw [scan, hdrop]
    exact h
  rw [tokens, dif_neg (by rw [hscan]; exact hend), if_neg (by rw [hscan]; exact herror), hscan]

lemma tokens_quoted (s : String) (rest : List UInt8) :
    tokens (Serializer.quoted s ++ rest) = .value_string s :: tokens rest := by
  have hscan : scan_token '"'.toUInt8 (s.toList.flatMap Serializer.escape ++
      '"'.toUInt8 :: rest) = (.value_string s, rest) := scan_quoted_string s rest
  rw [Serializer.quoted, List.append_assoc]
  exact tokens_cons rfl hscan (by rintro ⟨⟩) (by rintro ⟨⟩)

lemma scan_literal_append (literal_text : List Char) (return_type : Token) (rest : List UInt8) :
    scan_literal literal_text return_type (literal_text.map Char.toUInt8 ++ rest) =
      (return_type, rest) := by
  rw [scan_literal, if_pos (List.prefix_append _ _), List.drop_left']
  exact List.length_map ..

/-- A byte of a number. -/
lemma scan_token_number (h : current = '-'.toUInt8 ∨ isDigit current = true)
    (input : List UInt8) :
    isWhitespace current = false ∧ current.toNat < 0x80 ∧
      scan_token current input = scan_number current input := by
  rcases h with rfl | h
  · exact ⟨rfl, by decide, rfl⟩
  · obtain ⟨hlow, hhigh⟩ := isDigit_iff.mp h
    rw [← current.ofNat_toNat]
    generalize current.toNat = n at hlow hhigh
    interval_cases n <;> exact ⟨rfl, by decide, rfl⟩

end Lexer

/-- A byte that is a token, and ends a number. -/
structure Structural (c : UInt8) (token : Token) : Prop where
  ascii : 0x20 ≤ c.toNat ∧ c.toNat < 0x80
  tokens_cons : ∀ rest, Lexer.tokens (c :: rest) = token :: Lexer.tokens rest
  delimited : ∀ rest, Lexer.Delimited (c :: rest)

lemma Structural.of_scan {c : UInt8} {token : Token} (hc : 0x20 ≤ c.toNat ∧ c.toNat < 0x80)
    (hspace : Lexer.isWhitespace c = false)
    (hscan : ∀ input, Lexer.scan_token c input = (token, input)) (hend : token ≠ .end_of_input)
    (herror : token ≠ .parse_error) (hnext : Lexer.NumberState.any1.next c = none) :
    Structural c token where
  ascii := hc
  tokens_cons := fun rest => Lexer.tokens_cons hspace (hscan rest) hend herror
  delimited := by
    intro rest b hb
    cases hb
    exact hnext

lemma structural : Structural '['.toUInt8 .begin_array ∧ Structural ']'.toUInt8 .end_array ∧
    Structural '{'.toUInt8 .begin_object ∧ Structural '}'.toUInt8 .end_object ∧
    Structural ':'.toUInt8 .name_separator ∧ Structural ','.toUInt8 .value_separator := by
  refine ⟨?_, ?_, ?_, ?_, ?_, ?_⟩ <;>
    exact .of_scan (by decide) rfl (fun input => rfl) (by decide) (by decide) rfl

/-- The text is read as the tokens, if nothing follows that could belong to a number. -/
structure Reads (text : List UInt8) (tokens : List Token) : Prop where
  line : IsLine text
  head : ∀ b ∈ text.head?, b.toNat < 0x80
  tokens_append : ∀ rest, Lexer.Delimited rest →
    Lexer.tokens (text ++ rest) = tokens ++ Lexer.tokens rest

namespace Reads

variable {text text' : List UInt8} {tokens tokens' : List Token} {c d : UInt8} {token token' : Token}

lemma nil : Reads [] [] :=
  ⟨.nil, fun _ hb => (Option.not_mem_none _ hb).elim, fun _ _ => rfl⟩

/-- A text, a byte between, and another text. -/
lemma separated (h : Reads text tokens) (hc : Structural c token) (h' : Reads text' tokens') :
    Reads (text ++ c :: text') (tokens ++ token :: tokens') where
  line := h.line.append (h'.line.cons hc.ascii)
  head := by
    cases text with
    | nil => exact fun b hb => Option.mem_some_iff.mp hb ▸ hc.ascii.2
    | cons b text => exact h.head
  tokens_append := by
    intro rest hrest
    rw [List.append_assoc, List.append_assoc, List.cons_append, h.tokens_append _ (hc.delimited _),
      hc.tokens_cons, h'.tokens_append rest hrest]
    rfl

/-- A text in brackets. -/
lemma enclosed (hc : Structural c token) (h : Reads text tokens) (hd : Structural d token') :
    Reads (c :: text ++ [d]) (token :: tokens ++ [token']) :=
  nil.separated hc (h.separated hd nil)

lemma quoted (s : String) : Reads (Serializer.quoted s) [.value_string s] where
  line := Serializer.isLine_quoted s
  head := fun b hb => Option.mem_some_iff.mp hb ▸ by decide
  tokens_append := fun rest _ => Lexer.tokens_quoted s rest

lemma literal {first : UInt8} {literal_text : List Char} {return_type : Token}
    (hascii : (first :: literal_text.map Char.toUInt8).all
      (fun b => 0x20 ≤ b.toNat && b.toNat < 0x80) = true)
    (hspace : Lexer.isWhitespace first = false)
    (hscan : ∀ input, Lexer.scan_token first input =
      Lexer.scan_literal literal_text return_type input)
    (hend : return_type ≠ .end_of_input) (herror : return_type ≠ .parse_error) :
    Reads (first :: literal_text.map Char.toUInt8) [return_type] := by
  simp only [List.all_eq_true, Bool.and_eq_true, decide_eq_true_eq] at hascii
  refine ⟨.of_ascii hascii, fun _ hb => ?_, fun _ _ => ?_⟩
  · exact Option.mem_some_iff.mp hb ▸ (hascii first List.mem_cons_self).2
  · exact Lexer.tokens_cons hspace ((hscan _).trans (Lexer.scan_literal_append _ _ _)) hend herror

/-- An integer. -/
lemma exists_integer {n : ℤ} (hn : -2 ^ 63 ≤ n ∧ n < 2 ^ 64) :
    ∃ text, Serializer.dump_integer n = .ok text ∧ Reads text [Lexer.integerToken n] := by
  obtain ⟨_, hdump, current, input, rfl, hcurrent, hascii, hscan⟩ := Lexer.scan_number_integer hn
  have hhead := (Lexer.scan_token_number hcurrent input).2.1
  refine ⟨_, hdump, .of_ascii hascii, fun _ hb => Option.mem_some_iff.mp hb ▸ hhead,
    fun rest hrest => ?_⟩
  obtain ⟨hspace, -, htoken⟩ := Lexer.scan_token_number hcurrent (input ++ rest)
  have hend : Lexer.integerToken n ≠ .end_of_input := by
    rw [Lexer.integerToken]
    split_ifs <;> rintro ⟨⟩
  have herror : Lexer.integerToken n ≠ .parse_error := by
    rw [Lexer.integerToken]
    split_ifs <;> rintro ⟨⟩
  exact Lexer.tokens_cons hspace (htoken.trans (hscan rest hrest)) hend herror

end Reads

/-! ### Values -/

namespace Json

variable {j : Json}

mutual

/-- The serializer writes a text that is read as the tokens of the value. -/
lemma exists_dump (j : Json) (hj : j.Stored) (hfloats : j.NoFloats) :
    ∃ text, Serializer.dump j = .ok text ∧ Reads text j.tokens := by
  obtain ⟨hbegin_array, hend_array, hbegin_object, hend_object, -, -⟩ := structural
  match j with
  | .null =>
    refine ⟨_, rfl, ?_⟩
    exact .literal rfl rfl (fun input => rfl) (by decide) (by decide)
  | .bool true =>
    refine ⟨_, rfl, ?_⟩
    exact .literal rfl rfl (fun input => rfl) (by decide) (by decide)
  | .bool false =>
    refine ⟨_, rfl, ?_⟩
    exact .literal rfl rfl (fun input => rfl) (by decide) (by decide)
  | .int n =>
    rw [Stored] at hj
    exact Reads.exists_integer hj
  | .float q => exact hfloats.elim
  | .str s => exact ⟨_, Serializer.dump_string_eq s, .quoted s⟩
  | .arr l =>
    obtain ⟨text, hdump, hreads⟩ := exists_dumpElements l hj hfloats
    refine ⟨_, ?_, Reads.enclosed hbegin_array hreads hend_array⟩
    rw [Serializer.dump, hdump]
    rfl
  | .obj fields =>
    obtain ⟨text, hdump, hreads⟩ := exists_dumpMembers fields hj.2 hfloats
    refine ⟨_, ?_, Reads.enclosed hbegin_object hreads hend_object⟩
    rw [Serializer.dump, hdump]
    rfl

lemma exists_dumpElements (l : List Json) (hl : StoredAll l) (hfloats : NoFloatsAll l) :
    ∃ text, Serializer.dumpElements l = .ok text ∧ Reads text (elementTokens l) := by
  match l with
  | [] => exact ⟨[], rfl, .nil⟩
  | [j] => exact exists_dump j hl.1 hfloats.1
  | j :: j' :: l =>
    obtain ⟨element, hdump, hreads⟩ := exists_dump j hl.1 hfloats.1
    obtain ⟨elements, hdump', hreads'⟩ := exists_dumpElements (j' :: l) hl.2 hfloats.2
    refine ⟨_, ?_, hreads.separated structural.2.2.2.2.2 hreads'⟩
    rw [Serializer.dumpElements, hdump, hdump']
    · rfl
    · exact List.cons_ne_nil _ _

lemma exists_dumpMembers (fields : List (String × Json)) (hfields : StoredMembers fields)
    (hfloats : NoFloatsMembers fields) :
    ∃ text, Serializer.dumpMembers fields = .ok text ∧ Reads text (memberTokens fields) := by
  match fields with
  | [] => exact ⟨[], rfl, .nil⟩
  | [(key, j)] =>
    obtain ⟨value, hdump, hreads⟩ := exists_dump j hfields.1 hfloats.1
    refine ⟨_, ?_, (Reads.quoted key).separated structural.2.2.2.2.1 hreads⟩
    rw [Serializer.dumpMembers, Serializer.dump_string_eq, hdump]
    rfl
  | (key, j) :: field :: fields =>
    obtain ⟨value, hdump, hreads⟩ := exists_dump j hfields.1 hfloats.1
    obtain ⟨members, hdump', hreads'⟩ := exists_dumpMembers (field :: fields) hfields.2 hfloats.2
    have hmember := (Reads.quoted key).separated structural.2.2.2.2.1 hreads
    refine ⟨_, ?_, hmember.separated structural.2.2.2.2.2 hreads'⟩
    rw [Serializer.dumpMembers, Serializer.dump_string_eq, hdump, hdump']
    · rfl
    · exact List.cons_ne_nil _ _

end

end Json

/-! ### Plain values -/

namespace Json

variable {key : String} {value : Json} {fields : List (String × Json)}

lemma noFloats_insertMember (h : (obj fields).NoFloats) (hvalue : value.NoFloats) :
    (obj (insertMember key value fields)).NoFloats := by
  induction fields with
  | nil => exact ⟨hvalue, trivial⟩
  | cons p fields ih =>
    rw [insertMember]
    split_ifs
    · exact ⟨hvalue, h.2⟩
    · exact ⟨hvalue, h⟩
    · exact ⟨h.1, ih h.2⟩

/-- The value can be held, and has a text. -/
structure Plain (j : Json) : Prop where
  stored : j.Stored
  noFloats : j.NoFloats

lemma Plain.insertMember (h : (obj fields).Plain) (hvalue : value.Plain) :
    (obj (insertMember key value fields)).Plain :=
  ⟨stored_insertMember h.stored hvalue.stored, noFloats_insertMember h.noFloats hvalue.noFloats⟩

lemma Plain.insertMembers {members : List (String × Json)} (h : (obj members).Plain)
    (hfields : ∀ p ∈ fields, p.2.Plain) : (obj (insertMembers members fields)).Plain := by
  induction fields generalizing members with
  | nil => exact h
  | cons p fields ih =>
    obtain ⟨hp, hfields⟩ := List.forall_mem_cons.mp hfields
    exact ih (h.insertMember hp) hfields

lemma plain_obj_nil : (obj []).Plain := ⟨stored_obj_nil, trivial⟩

lemma plain_str (s : String) : (str s).Plain := ⟨trivial, trivial⟩

lemma plain_int {n : ℕ} (h : n < 2 ^ 64) : (int n).Plain := by
  refine ⟨?_, trivial⟩
  rw [Stored]
  omega

end Json

/-! ### Parsing -/

namespace Parser

open Json

lemma scalar_integerToken (n : ℤ) : scalar (Lexer.integerToken n) = some (.int n) := by
  rw [Lexer.integerToken]
  split_ifs with h
  · rw [scalar, Int.toNat_of_nonneg h]
  · rfl

lemma scalar_float {q : ℚ} (h : (Json.float q).Stored) :
    scalar (.value_float q) = some (.float q) := by
  rw [scalar, if_pos h.2]

mutual

/-- The tokens of a value are a derivation of it. -/
lemma value_tokens (j : Json) (hj : j.Stored) (rest : List Token) :
    Value (j.tokens ++ rest) j rest := by
  match j with
  | .null | .bool true | .bool false | .str s => exact .scalar _ _ _ rfl
  | .int n => exact .scalar _ _ _ (scalar_integerToken n)
  | .float q => exact .scalar _ _ _ (scalar_float hj)
  | .arr [] => exact .emptyArray rest
  | .arr (j :: l) =>
    have helements := elements_tokens (j :: l) hj (List.cons_ne_nil _ _) rest
    rw [Json.tokens, List.append_assoc]
    exact .array _ _ _ helements
  | .obj [] => exact .emptyObject rest
  | .obj (field :: fields) =>
    have hmembers := members_tokens (field :: fields) hj.2 (List.cons_ne_nil _ _) rest
    have hvalue := Value.object _ _ _ hmembers
    rw [insertMembers_append hj.1] at hvalue
    rw [Json.tokens, List.append_assoc]
    exact hvalue

lemma elements_tokens (l : List Json) (hl : StoredAll l) (hne : l ≠ []) (rest : List Token) :
    Elements (elementTokens l ++ .end_array :: rest) l rest := by
  match l with
  | [] => exact absurd rfl hne
  | [j] => exact .last _ _ _ (value_tokens j hl.1 _)
  | j :: j' :: l =>
    have helements := elements_tokens (j' :: l) hl.2 (List.cons_ne_nil _ _) rest
    rw [elementTokens, List.append_assoc]
    · exact .cons _ _ _ _ _ (value_tokens j hl.1 _) helements
    · exact List.cons_ne_nil _ _

lemma members_tokens (fields : List (String × Json)) (hfields : StoredMembers fields)
    (hne : fields ≠ []) (rest : List Token) :
    Members (memberTokens fields ++ .end_object :: rest) fields rest := by
  match fields with
  | [] => exact absurd rfl hne
  | [(key, j)] => exact .last _ _ _ _ (value_tokens j hfields.1 _)
  | (key, j) :: field :: fields =>
    have hmembers := members_tokens (field :: fields) hfields.2 (List.cons_ne_nil _ _) rest
    rw [memberTokens, List.append_assoc]
    · exact .cons _ _ _ _ _ _ (value_tokens j hfields.1 _) hmembers
    · exact List.cons_ne_nil _ _

end

/-- What the serializer writes of a value is parsed to the value. -/
lemma parse_of_reads {text : List UInt8} {j : Json} (hj : j.Stored) (h : Reads text j.tokens) :
    parse text = .ok j := by
  have hnull : text.takeWhile (fun c => c ≠ 0) = text := by
    rw [List.takeWhile_eq_self_iff]
    intro b hb
    have hprintable := h.line.printable b hb
    rw [decide_eq_true_iff]
    rintro rfl
    exact absurd hprintable (by decide)
  have hbom : Lexer.skip_bom text = some text := by
    cases text with
    | nil => rfl
    | cons b text =>
      have hb := h.head b rfl
      refine if_neg ?_
      rintro rfl
      exact absurd hb (by decide)
  have htokens := h.tokens_append [] fun c hc => (Option.not_mem_none _ hc).elim
  rw [List.append_nil, Lexer.tokens_nil] at htokens
  rw [parse, hnull, hbom]
  simp only [htokens]
  exact parse_value_eq_ok_iff.mpr ⟨[], value_tokens j hj _⟩

/-- Each value that a `json` object can hold, without floating-point numbers, has a text. It is a
printable line in UTF-8, and is parsed to the value. -/
theorem parse_dump {j : Json} (hj : j.Plain) :
    ∃ text, Serializer.dump j = .ok text ∧ IsLine text ∧ parse text = .ok j := by
  obtain ⟨text, hdump, hreads⟩ := exists_dump j hj.stored hj.noFloats
  exact ⟨text, hdump, hreads.line, parse_of_reads hj.stored hreads⟩

/-- An array in an object, beside a string with characters that are escaped. -/
theorem parse_dump_nested :
    let j : Json := .obj [("id", .str "\"\n\u00e9"), ("values", .arr [.int (-5), .null, .obj []])]
    ∃ text, Serializer.dump j = .ok text ∧ IsLine text ∧ parse text = .ok j := by
  refine parse_dump ⟨⟨by decide, trivial, ⟨?_, trivial, ⟨.nil, trivial⟩, trivial⟩, trivial⟩, ?_⟩
  · rw [Stored]
    decide
  · exact ⟨trivial, ⟨trivial, trivial, trivial, trivial⟩, trivial⟩

end Parser

end ServerUnit
