import ServerUnit.JsonText.Parser

/-!
# The grammar of the values

The parser keeps what is open on a stack, and looks at one token after the other. The grammar says
which tokens make a value, and which value they make. The parser takes the tokens of the grammar,
and no others.
-/

namespace ServerUnit

open Lib

namespace Json

/-- Members in the order of a text. The last one with a key counts. -/
def insertMembers (members fields : List (String × Json)) : List (String × Json) :=
  fields.foldl (fun members p => insertMember p.1 p.2 members) members

end Json

namespace Parser

open Json

/-! ### Derivations -/

mutual

/-- The tokens begin with a value, after which the others follow. -/
inductive Value : List Token → Json → List Token → Prop where
  | scalar (token : Token) (value : Json) (rest : List Token) (h : scalar token = some value) :
      Value (token :: rest) value rest
  | emptyArray (rest : List Token) : Value (.begin_array :: .end_array :: rest) (.arr []) rest
  | array (tokens : List Token) (l : List Json) (rest : List Token) (h : Elements tokens l rest) :
      Value (.begin_array :: tokens) (.arr l) rest
  | emptyObject (rest : List Token) : Value (.begin_object :: .end_object :: rest) (.obj []) rest
  | object (tokens : List Token) (fields : List (String × Json)) (rest : List Token)
      (h : Members tokens fields rest) :
      Value (.begin_object :: tokens) (.obj (insertMembers [] fields)) rest

/-- The elements of an array and its end. -/
inductive Elements : List Token → List Json → List Token → Prop where
  | last (tokens : List Token) (j : Json) (rest : List Token)
      (h : Value tokens j (.end_array :: rest)) : Elements tokens [j] rest
  | cons (tokens tokens' : List Token) (j : Json) (l : List Json) (rest : List Token)
      (h : Value tokens j (.value_separator :: tokens')) (h' : Elements tokens' l rest) :
      Elements tokens (j :: l) rest

/-- The members of an object and its end. -/
inductive Members : List Token → List (String × Json) → List Token → Prop where
  | last (key : String) (tokens : List Token) (j : Json) (rest : List Token)
      (h : Value tokens j (.end_object :: rest)) :
      Members (.value_string key :: .name_separator :: tokens) [(key, j)] rest
  | cons (key : String) (tokens tokens' : List Token) (j : Json) (fields : List (String × Json))
      (rest : List Token) (h : Value tokens j (.value_separator :: tokens'))
      (h' : Members tokens' fields rest) :
      Members (.value_string key :: .name_separator :: tokens) ((key, j) :: fields) rest

end

section

variable {tokens rest : List Token} {value : Json} {l : List Json}
  {fields : List (String × Json)} {states : List Frame}

mutual

/-- Something is read before the rest. -/
lemma Value.exists_append {tokens rest : List Token} {value : Json}
    (h : Value tokens value rest) : ∃ token front, tokens = token :: front ++ rest := by
  match h with
  | .scalar token value rest h => exact ⟨token, [], rfl⟩
  | .emptyArray rest => exact ⟨.begin_array, [.end_array], rfl⟩
  | .array tokens l rest h =>
    obtain ⟨front, rfl⟩ := Elements.exists_append h
    exact ⟨.begin_array, front, rfl⟩
  | .emptyObject rest => exact ⟨.begin_object, [.end_object], rfl⟩
  | .object tokens fields rest h =>
    obtain ⟨front, rfl⟩ := Members.exists_append h
    exact ⟨.begin_object, front, rfl⟩

lemma Elements.exists_append {tokens rest : List Token} {l : List Json}
    (h : Elements tokens l rest) : ∃ front, tokens = front ++ rest := by
  match h with
  | .last tokens j rest h =>
    obtain ⟨token, front, rfl⟩ := Value.exists_append h
    exact ⟨token :: front ++ [.end_array], List.append_cons ..⟩
  | .cons tokens tokens' j l rest h h' =>
    obtain ⟨token, front, rfl⟩ := Value.exists_append h
    obtain ⟨front', rfl⟩ := Elements.exists_append h'
    exact ⟨token :: front ++ .value_separator :: front', by simp⟩

lemma Members.exists_append {tokens rest : List Token}
    {fields : List (String × Json)} (h : Members tokens fields rest) :
    ∃ front, tokens = front ++ rest := by
  match h with
  | .last key tokens j rest h =>
    obtain ⟨token, front, rfl⟩ := Value.exists_append h
    exact ⟨.value_string key :: .name_separator :: (token :: front ++ [.end_object]), by simp⟩
  | .cons key tokens tokens' j fields rest h h' =>
    obtain ⟨token, front, rfl⟩ := Value.exists_append h
    obtain ⟨front', rfl⟩ := Members.exists_append h'
    exact ⟨.value_string key :: .name_separator :: (token :: front ++ .value_separator :: front'),
      by simp⟩

end

lemma Value.length_lt (h : Value tokens value rest) : rest.length < tokens.length := by
  obtain ⟨token, front, rfl⟩ := h.exists_append
  rw [List.length_append, List.length_cons]
  omega

/-! ### The grammar is taken -/

/-- No value begins with the end of an array. -/
lemma Elements.ne_end_array {token : Token} (h : Elements (token :: tokens) l rest) :
    token ≠ .end_array := by
  rintro rfl
  have hvalue : ∀ j rest, ¬ Value (.end_array :: tokens) j rest := by
    intro j rest h
    cases h with
    | scalar token value rest h => cases h
  cases h with
  | last tokens j rest h => exact hvalue _ _ h
  | cons tokens tokens' j l rest h h' => exact hvalue _ _ h

lemma parse_value_scalar {token : Token} (h : scalar token = some value) (rest : List Token) :
    parse_value states (token :: rest) = evaluate states value rest := by
  rw [parse_value]
  · rw [h]
  · rintro rfl
    cases h
  · rintro rfl
    cases h

lemma parse_value_array (h : ∀ tokens', tokens ≠ .end_array :: tokens') :
    parse_value states (.begin_array :: tokens) = parse_value (.array [] :: states) tokens := by
  rw [parse_value]
  exact h

mutual

lemma Value.parse_value_eq {tokens rest : List Token} {value : Json}
    (h : Value tokens value rest) (states : List Frame) :
    parse_value states tokens = evaluate states value rest := by
  match h with
  | .scalar token value rest h => exact parse_value_scalar h rest
  | .emptyArray rest => rfl
  | .array tokens l rest h =>
    rw [parse_value_array]
    · exact h.parse_value_eq [] states
    · rintro tokens' rfl
      exact h.ne_end_array rfl
  | .emptyObject rest => rfl
  | .object tokens fields rest h =>
    obtain ⟨key, tokens', rfl, hmembers⟩ := h.parse_value_eq
    exact hmembers [] states

lemma Elements.parse_value_eq {tokens rest : List Token} {l : List Json}
    (h : Elements tokens l rest) (elements : List Json) (states : List Frame) :
    parse_value (.array elements :: states) tokens =
      evaluate states (.arr (elements ++ l)) rest := by
  match h with
  | .last tokens j rest h =>
    rw [h.parse_value_eq]
    rfl
  | .cons tokens tokens' j l rest h h' =>
    have hrest := h'.parse_value_eq (elements ++ [j]) states
    rw [List.append_assoc] at hrest
    rw [h.parse_value_eq]
    exact hrest

lemma Members.parse_value_eq {tokens rest : List Token}
    {fields : List (String × Json)} (h : Members tokens fields rest) : ∃ key tokens',
    tokens = .value_string key :: .name_separator :: tokens' ∧
      ∀ members states, parse_value (.object members key :: states) tokens' =
        evaluate states (.obj (insertMembers members fields)) rest := by
  match h with
  | .last key tokens j rest h =>
    have hvalue := h.parse_value_eq
    refine ⟨key, tokens, rfl, fun members states => ?_⟩
    rw [hvalue]
    rfl
  | .cons key tokens tokens' j fields rest h h' =>
    have hvalue := h.parse_value_eq
    obtain ⟨key', tokens'', rfl, hrest⟩ := h'.parse_value_eq
    refine ⟨key, tokens, rfl, fun members states => ?_⟩
    rw [hvalue]
    exact hrest (insertMember key j members) states

end

end

/-! ### Nothing else is taken -/

/-- What the parser reads at a value when it returns. -/
inductive ValueRead (j : Json) (states : List Frame) : List Token → Prop where
  | emptyObject (tokens : List Token) (h : evaluate states (.obj []) tokens = .ok j) :
      ValueRead j states (.begin_object :: .end_object :: tokens)
  | object (key : String) (tokens : List Token)
      (h : parse_value (.object [] key :: states) tokens = .ok j) :
      ValueRead j states (.begin_object :: .value_string key :: .name_separator :: tokens)
  | emptyArray (tokens : List Token) (h : evaluate states (.arr []) tokens = .ok j) :
      ValueRead j states (.begin_array :: .end_array :: tokens)
  | array (tokens : List Token) (h : parse_value (.array [] :: states) tokens = .ok j) :
      ValueRead j states (.begin_array :: tokens)
  | scalar (token : Token) (value : Json) (tokens : List Token) (hscalar : scalar token = some value)
      (h : evaluate states value tokens = .ok j) : ValueRead j states (token :: tokens)

lemma ValueRead.of_parse_value {j : Json} {states : List Frame} {tokens : List Token}
    (h : parse_value states tokens = .ok j) : ValueRead j states tokens := by
  cases tokens with
  | nil => cases h
  | cons token tokens =>
    rw [parse_value.eq_def] at h
    dsimp only at h
    split at h
    · split at h
      · exact .emptyObject _ h
      · exact .object _ _ h
      · cases h
    · split at h
      · exact .emptyArray _ h
      · exact .array _ h
    · split at h
      · next hscalar => exact .scalar _ _ _ hscalar h
      · cases h

/-- What it reads after a value. -/
inductive StateRead (j value : Json) : List Frame → List Token → Prop where
  | done (tokens : List Token) (h : j = value) : StateRead j value [] (.end_of_input :: tokens)
  | element (elements : List Json) (states : List Frame) (tokens : List Token)
      (h : parse_value (.array (elements ++ [value]) :: states) tokens = .ok j) :
      StateRead j value (.array elements :: states) (.value_separator :: tokens)
  | endArray (elements : List Json) (states : List Frame) (tokens : List Token)
      (h : evaluate states (.arr (elements ++ [value])) tokens = .ok j) :
      StateRead j value (.array elements :: states) (.end_array :: tokens)
  | member (members : List (String × Json)) (key key' : String) (states : List Frame)
      (tokens : List Token)
      (h : parse_value (.object (Json.insertMember key value members) key' :: states) tokens =
        .ok j) :
      StateRead j value (.object members key :: states)
        (.value_separator :: .value_string key' :: .name_separator :: tokens)
  | endObject (members : List (String × Json)) (key : String) (states : List Frame)
      (tokens : List Token)
      (h : evaluate states (.obj (Json.insertMember key value members)) tokens = .ok j) :
      StateRead j value (.object members key :: states) (.end_object :: tokens)

lemma StateRead.of_evaluate {j value : Json} {states : List Frame} {tokens : List Token}
    (h : evaluate states value tokens = .ok j) : StateRead j value states tokens := by
  rw [evaluate.eq_def] at h
  split at h
  · split at h
    · cases h
      exact .done _ rfl
    · cases h
  · split at h
    · exact .element _ _ _ h
    · exact .endArray _ _ _ h
    · cases h
  · split at h
    · exact .member _ _ _ _ _ h
    · exact .endObject _ _ _ _ h
    · cases h

/-- An open array gets elements until its end. -/
def ClosesArray (j : Json) (tokens : List Token) : Prop :=
  ∀ value elements states, evaluate (.array elements :: states) value tokens = .ok j →
    ∃ l rest, (∀ front, Value front value tokens → Elements front (value :: l) rest) ∧
      rest.length < tokens.length ∧ evaluate states (.arr (elements ++ value :: l)) rest = .ok j

/-- An open object gets members until its end. -/
def ClosesObject (j : Json) (tokens : List Token) : Prop :=
  ∀ value members key states, evaluate (.object members key :: states) value tokens = .ok j →
    ∃ fields rest, (∀ front, Value front value tokens →
        Members (.value_string key :: .name_separator :: front) ((key, value) :: fields) rest) ∧
      rest.length < tokens.length ∧
        evaluate states (.obj (insertMembers members ((key, value) :: fields))) rest = .ok j

/-- The parser goes over a value first. -/
def ReadsValue (j : Json) (tokens : List Token) : Prop :=
  ∀ states, parse_value states tokens = .ok j →
    ∃ value rest, Value tokens value rest ∧ evaluate states value rest = .ok j

lemma readsValue (j : Json) (n : ℕ) : ∀ tokens : List Token, tokens.length < n →
    ReadsValue j tokens ∧ ClosesArray j tokens ∧ ClosesObject j tokens := by
  induction n with
  | zero => exact fun tokens h => absurd h (Nat.not_lt_zero _)
  | succ n ih =>
    intro tokens hlength
    refine ⟨?_, ?_, ?_⟩
    · intro states h
      cases ValueRead.of_parse_value h with
      | emptyObject rest hnext => exact ⟨_, rest, .emptyObject rest, hnext⟩
      | object key tokens' hnext =>
        rw [List.length_cons, List.length_cons, List.length_cons] at hlength
        obtain ⟨value, rest, hvalue, heval⟩ := (ih tokens' (by omega)).1 _ hnext
        have hshort := hvalue.length_lt
        obtain ⟨fields, rest', hmembers, -, heval'⟩ := (ih rest (by omega)).2.2 _ _ _ _ heval
        exact ⟨_, rest', .object _ _ _ (hmembers tokens' hvalue), heval'⟩
      | emptyArray rest hnext => exact ⟨_, rest, .emptyArray rest, hnext⟩
      | array tokens' hnext =>
        rw [List.length_cons] at hlength
        obtain ⟨value, rest, hvalue, heval⟩ := (ih tokens' (by omega)).1 _ hnext
        have hshort := hvalue.length_lt
        obtain ⟨l, rest', helements, -, heval'⟩ := (ih rest (by omega)).2.1 _ _ _ heval
        exact ⟨_, rest', .array _ _ _ (helements tokens' hvalue), heval'⟩
      | scalar token value rest hscalar hnext =>
        exact ⟨value, rest, .scalar token value rest hscalar, hnext⟩
    · intro value elements states h
      cases StateRead.of_evaluate h with
      | element elements states tokens' hnext =>
        rw [List.length_cons] at hlength ⊢
        obtain ⟨value', rest, hvalue, heval⟩ := (ih tokens' (by omega)).1 _ hnext
        have hshort := hvalue.length_lt
        obtain ⟨l, rest', helements, hshort', heval'⟩ := (ih rest (by omega)).2.1 _ _ _ heval
        refine ⟨value' :: l, rest', fun front hfront => ?_, by omega, ?_⟩
        · exact .cons _ _ _ _ _ hfront (helements tokens' hvalue)
        · rw [List.append_assoc] at heval'
          exact heval'
      | endArray elements states rest hnext =>
        exact ⟨[], rest, fun front hfront => .last _ _ _ hfront, Nat.lt_succ_self _, hnext⟩
    · intro value members key states h
      cases StateRead.of_evaluate h with
      | member members key key' states tokens' hnext =>
        rw [List.length_cons, List.length_cons, List.length_cons] at hlength ⊢
        obtain ⟨value', rest, hvalue, heval⟩ := (ih tokens' (by omega)).1 _ hnext
        have hshort := hvalue.length_lt
        obtain ⟨fields, rest', hmembers, hshort', heval'⟩ := (ih rest (by omega)).2.2 _ _ _ _ heval
        refine ⟨(key', value') :: fields, rest', fun front hfront => ?_, by omega, heval'⟩
        exact .cons _ _ _ _ _ _ hfront (hmembers tokens' hvalue)
      | endObject members key states rest hnext =>
        exact ⟨[], rest, fun front hfront => .last _ _ _ _ hfront, Nat.lt_succ_self _, hnext⟩

/-- The parser takes the tokens of a value, and then the end. -/
lemma parse_value_eq_ok_iff {tokens : List Token} {j : Json} : parse_value [] tokens = .ok j ↔
    ∃ rest, Value tokens j (.end_of_input :: rest) := by
  constructor
  · intro h
    obtain ⟨value, rest, hvalue, heval⟩ :=
      (readsValue j _ tokens (Nat.lt_succ_self _)).1 [] h
    cases StateRead.of_evaluate heval with
    | done rest hj => exact ⟨rest, hj ▸ hvalue⟩
  · rintro ⟨rest, h⟩
    rw [h.parse_value_eq]
    rfl

/-- The end comes only once. -/
lemma eq_nil_of_tokens_eq {input : List UInt8} {front rest : List Token}
    (h : Lexer.tokens input = front ++ .end_of_input :: rest) : rest = [] := by
  fun_induction Lexer.tokens input generalizing front with
  | case1 =>
    obtain ⟨-, hrest⟩ | ⟨l, -, hrest⟩ := List.cons_eq_append_iff.mp h
    · exact (List.cons.inj hrest).2
    · cases (List.nil_eq_append_iff.mp hrest).2
  | case2 =>
    obtain ⟨-, hrest⟩ | ⟨l, -, hrest⟩ := List.cons_eq_append_iff.mp h
    · cases hrest
    · cases (List.nil_eq_append_iff.mp hrest).2
  | case3 input hend herror ih =>
    obtain ⟨-, hrest⟩ | ⟨l, -, hrest⟩ := List.cons_eq_append_iff.mp h
    · exact absurd (List.cons.inj hrest).1.symm hend
    · exact ih hrest

/-- A text has a value exactly if its tokens derive it. -/
theorem parse_eq_ok_iff {text : List UInt8} {j : Json} : parse text = .ok j ↔
    ∃ input, Lexer.skip_bom (text.takeWhile fun c => c ≠ 0) = some input ∧
      Value (Lexer.tokens input) j [.end_of_input] := by
  rw [parse]
  split
  · next hbom =>
    refine iff_of_false (fun h => by cases h) ?_
    rintro ⟨input, hinput, -⟩
    cases hbom.symm.trans hinput
  · next input hbom =>
    rw [parse_value_eq_ok_iff]
    constructor
    · rintro ⟨rest, h⟩
      obtain ⟨token, front, htokens⟩ := h.exists_append
      cases eq_nil_of_tokens_eq htokens
      exact ⟨input, hbom, h⟩
    · rintro ⟨input', hinput, h⟩
      cases hbom.symm.trans hinput
      exact ⟨[], h⟩

end Parser

end ServerUnit
