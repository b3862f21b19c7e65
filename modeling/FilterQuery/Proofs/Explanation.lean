/-
FilterQuery.Proofs.Explanation — a query is never refused without a
reason.

There is a predicate exactly if no step reports anything. One direction
is how the three steps are put together. The other is about what happens
when nothing is reported: the text has been read as a sentence of the
grammar, so no part of its tree is missing (`sentence_of_errors_eq_nil`),
and a tree without missing parts binds unless binding reports why not
(`predicate_of_errors`).

The steps are not symmetric. Binding says nothing about a missing part,
and is not even started when there is no tree; in both cases it is
reading that has reported something.
-/
import FilterQuery.Proofs.Acceptance
import FilterQuery.Proofs.Bound
import FilterQuery.Query

namespace FilterQuery

theorem Lexed.ofBoundedText_of_within {limit : Nat} {text : String}
    (h : text.utf8ByteSize ≤ limit) : Lexed.ofBoundedText limit text = Lexed.ofText text :=
  if_neg (Nat.not_lt.mpr h)

namespace Syntactic

/-- A text of more bytes than allowed is refused unread. -/
theorem ofText_of_too_long {limits : Limits} {text : String}
    (h : text.utf8ByteSize > limits.maxInputLength) :
    Syntactic.ofText limits text =
      { ast := none
        lexErrors := [.inputTooLong text.utf8ByteSize limits.maxInputLength]
        syntaxErrors := [] } := by
  simp [Syntactic.ofText, Lexed.ofBoundedText, h]

/-- A text that is not too long is cut into tokens, and these are read. -/
theorem ofText_of_within {limits : Limits} {text : String}
    (h : text.utf8ByteSize ≤ limits.maxInputLength) :
    Syntactic.ofText limits text =
      { ast := (Parsed.ofTokens limits.maxDepth (Lexed.ofText text).tokens
          (Lexed.ofText text).stop).ast
        lexErrors := (Lexed.ofText text).errors
        syntaxErrors := (Parsed.ofTokens limits.maxDepth (Lexed.ofText text).tokens
          (Lexed.ofText text).stop).errors } := by
  rw [Syntactic.ofText, Lexed.ofBoundedText_of_within h, if_neg (Nat.not_lt.mpr h)]

/-- Where reading reports nothing, the text is within its limit, its tokens
are a sentence without unknown heads, and the tree is the node of the sentence. -/
theorem sentence_of_errors {limits : Limits} {text : String}
    (hlex : (Syntactic.ofText limits text).lexErrors = [])
    (hparse : (Syntactic.ofText limits text).syntaxErrors = []) :
    text.utf8ByteSize ≤ limits.maxInputLength ∧
    ∃ e, Grammar.Expression (Lexed.ofText text).tokens e ∧
      e.nesting ≤ min limits.maxDepth depthCeiling ∧ e.unknownHeads = [] ∧
      (Syntactic.ofText limits text).ast = some e.node := by
  by_cases hlength : text.utf8ByteSize ≤ limits.maxInputLength
  · rw [ofText_of_within hlength] at hparse ⊢
    exact ⟨hlength, Parsed.sentence_of_errors_eq_nil hparse⟩
  · rw [ofText_of_too_long (Nat.not_le.mp hlength)] at hlex
    exact absurd hlex (by simp)

/-- A text within its limit whose tokens are a sentence without unknown heads is read
as the node of the sentence, and nothing is reported. -/
theorem ofText_of_sentence {limits : Limits} {text : String} {e : Grammar.Phrase}
    (hlength : text.utf8ByteSize ≤ limits.maxInputLength)
    (hlex : (Lexed.ofText text).errors = [])
    (he : Grammar.Expression (Lexed.ofText text).tokens e)
    (hnesting : e.nesting ≤ min limits.maxDepth depthCeiling) (hheads : e.unknownHeads = []) :
    Syntactic.ofText limits text = ⟨some e.node, [], []⟩ := by
  have hread : Parsed.ofTokens limits.maxDepth (Lexed.ofText text).tokens
      (Lexed.ofText text).stop =
      { ast := if e.node.isInvalid then none else some e.node, errors := e.unknownHeads } :=
    Parse.query_of_expression he hnesting
  have hintact := Grammar.intact_of_expression he hheads
  rw [ofText_of_within hlength, hread]
  simp [hlex, hheads, hintact.isInvalid_eq_false]

end Syntactic

namespace Outcome

/-! ## 1. The three steps together -/

/-- What binding is asked for once there is a tree. -/
theorem ofText_of_ast {schema : Schema} {limits : Limits} {text : String} {n : Node}
    (h : (Syntactic.ofText limits text).ast = some n) :
    (ofText schema limits text).bindErrors = (schema.bind n).errors ∧
    ((ofText schema limits text).lexErrors = [] → (ofText schema limits text).syntaxErrors = [] →
      (ofText schema limits text).bindErrors = [] →
      (ofText schema limits text).predicate = (schema.bind n).predicate) := by
  refine ⟨by simp [ofText, ofSyntactic, h], ?_⟩
  intro hlex hparse hbind
  simp only [ofText, ofSyntactic, h, Option.map_some, Option.getD_some] at hlex hparse hbind ⊢
  simp [hlex, hparse, hbind]

/-- A predicate is only given if no step reports anything, and it is what the
tree binds to. -/
theorem of_predicate {schema : Schema} {limits : Limits} {text : String} {p : Predicate}
    (h : (ofText schema limits text).predicate = some p) :
    (ofText schema limits text).lexErrors = [] ∧ (ofText schema limits text).syntaxErrors = [] ∧
    (ofText schema limits text).bindErrors = [] ∧
    ∃ n, (Syntactic.ofText limits text).ast = some n ∧ (schema.bind n).predicate = some p := by
  simp only [ofText, ofSyntactic] at h ⊢
  split at h
  · next hclean =>
    simp only [Bool.and_eq_true, List.isEmpty_iff] at hclean
    obtain ⟨⟨hlex, hparse⟩, hbind⟩ := hclean
    refine ⟨hlex, hparse, hbind, ?_⟩
    cases hast : (Syntactic.ofText limits text).ast with
    | none =>
      rw [hast] at h
      exact absurd h (by simp)
    | some n =>
      rw [hast] at h
      exact ⟨n, rfl, h⟩
  · exact absurd h (by simp)

/-- Nothing is said exactly if each step says nothing. -/
theorem diagnostics_eq_nil {o : Outcome} :
    o.diagnostics = [] ↔ o.lexErrors = [] ∧ o.syntaxErrors = [] ∧ o.bindErrors = [] := by
  unfold diagnostics
  simp

theorem length_diagnostics (o : Outcome) : o.diagnostics.length = o.errorCount := by
  unfold diagnostics errorCount
  simp [Nat.add_assoc]

/-- The failure says what the diagnostics say, in the same order. -/
theorem messages_failure (o : Outcome) :
    o.failure.messages = o.diagnostics.map Diagnostic.message := by
  unfold QueryError.messages diagnostics
  simp only [List.map_append, List.map_map]
  rfl

/-- The line about a failure counts the mistakes and says the first of them. -/
theorem text_failure {o : Outcome} {d : Diagnostic} {ds : List Diagnostic}
    (h : o.diagnostics = d :: ds) :
    o.failure.text =
      "invalid query (" ++ toString (ds.length + 1) ++ " error(s)): " ++ d.message := by
  have hcount : o.failure.count = ds.length + 1 := by
    have hlength := length_diagnostics o
    rw [h, List.length_cons] at hlength
    exact hlength.symm
  have hmessages : o.failure.messages = d.message :: ds.map Diagnostic.message := by
    rw [messages_failure, h, List.map_cons]
  have hjoin : " error(s))" ++ ": " = " error(s)): " := by decide
  unfold QueryError.text
  rw [hcount, hmessages, ← hjoin]
  dsimp only
  rw [← String.append_assoc, ← String.append_assoc]

theorem toResult_eq_error {o : Outcome} {failure : QueryError} :
    o.toResult = .error failure ↔ o.predicate = none ∧ failure = o.failure := by
  unfold toResult
  cases o.predicate with
  | some p => simp
  | none => simp [eq_comm]

theorem toExcept_eq_error {o : Outcome} {message : String} :
    o.toExcept = .error message ↔ o.predicate = none ∧ message = o.failure.text := by
  unfold toExcept toResult
  cases o.predicate with
  | some p => simp [Except.mapError]
  | none => simp [Except.mapError, eq_comm]

/-- Such a sentence is given the predicate that its node binds to. -/
theorem ofText_of_sentence {schema : Schema} {limits : Limits} {text : String}
    {e : Grammar.Phrase} {p : Predicate} (hlength : text.utf8ByteSize ≤ limits.maxInputLength)
    (hlex : (Lexed.ofText text).errors = [])
    (he : Grammar.Expression (Lexed.ofText text).tokens e)
    (hnesting : e.nesting ≤ min limits.maxDepth depthCeiling) (hheads : e.unknownHeads = [])
    (hbind : (schema.bind e.node).predicate = some p) :
    ofText schema limits text = ⟨some p, [], [], []⟩ := by
  have herrors : (schema.bind e.node).errors = [] := Binding.errors_of_predicate hbind
  rw [ofText, ofSyntactic, Syntactic.ofText_of_sentence hlength hlex he hnesting hheads]
  simp [hbind, herrors]

/-- Where no step reports anything, the tree of the sentence has bound. -/
theorem isSome_of_no_errors {schema : Schema} {limits : Limits} {text : String}
    (hlex : (ofText schema limits text).lexErrors = [])
    (hparse : (ofText schema limits text).syntaxErrors = [])
    (hbind : (ofText schema limits text).bindErrors = []) :
    (ofText schema limits text).predicate.isSome = true := by
  obtain ⟨_, e, he, _, hheads, hast⟩ := Syntactic.sentence_of_errors hlex hparse
  obtain ⟨herrors, hpredicate⟩ := @ofText_of_ast schema _ _ _ hast
  rw [hpredicate hlex hparse hbind]
  exact Binding.predicate_of_errors (Grammar.intact_of_expression he hheads) (herrors ▸ hbind)

/-- A predicate that is given is what the node of a sentence binds to. -/
theorem sentence_of_predicate {schema : Schema} {limits : Limits} {text : String} {p : Predicate}
    (h : (ofText schema limits text).predicate = some p) :
    ∃ e, Grammar.Expression (Lexed.ofText text).tokens e ∧
      e.nesting ≤ min limits.maxDepth depthCeiling ∧
      (Binding.node schema e.node).predicate = some p := by
  obtain ⟨hlex, hparse, _, n, hast, hbound⟩ := of_predicate h
  obtain ⟨_, e, he, hnesting, _, hnode⟩ := Syntactic.sentence_of_errors hlex hparse
  obtain rfl : n = e.node := Option.some.inj (hast.symm.trans hnode)
  exact ⟨e, he, hnesting, hbound⟩

/-- A text with a predicate is cut into tokens without an error. -/
theorem lexed_of_predicate {schema : Schema} {limits : Limits} {text : String} {p : Predicate}
    (h : (ofText schema limits text).predicate = some p) : (Lexed.ofText text).errors = [] := by
  obtain ⟨hlex, hparse, _⟩ := of_predicate h
  obtain ⟨hlength, _⟩ := Syntactic.sentence_of_errors hlex hparse
  have herrors : (Syntactic.ofText limits text).lexErrors = [] := hlex
  rwa [Syntactic.ofText_of_within hlength] at herrors

/-! ## 2. The law -/

/-- **No query is refused without a reason**, whatever the schema, the limits
and the text are:

* there is a predicate exactly if none of the three steps reports anything;
* so there is none exactly if at least one mistake is reported;
* the failure handed on in place of a predicate holds the mistakes of every step,
  and at least one;
* and the line about it always names a mistake, the first one found. -/
theorem ofText_explains (schema : Schema) (limits : Limits) (text : String) :
    ((ofText schema limits text).predicate.isSome = true ↔
      (ofText schema limits text).lexErrors = [] ∧
      (ofText schema limits text).syntaxErrors = [] ∧
      (ofText schema limits text).bindErrors = []) ∧
    ((ofText schema limits text).predicate = none ↔
      0 < (ofText schema limits text).errorCount) ∧
    (∀ failure, (ofText schema limits text).toResult = .error failure ↔
      failure = ⟨(ofText schema limits text).lexErrors, (ofText schema limits text).syntaxErrors,
        (ofText schema limits text).bindErrors⟩ ∧ 0 < failure.count) ∧
    ∀ message, (ofText schema limits text).toExcept = .error message ↔
      ∃ d ds, (ofText schema limits text).diagnostics = d :: ds ∧
        message = "invalid query (" ++ toString (ds.length + 1) ++ " error(s)): " ++ d.message := by
  have hlaw : (ofText schema limits text).predicate.isSome = true ↔
      (ofText schema limits text).lexErrors = [] ∧ (ofText schema limits text).syntaxErrors = [] ∧
      (ofText schema limits text).bindErrors = [] := by
    constructor
    · intro h
      obtain ⟨p, hp⟩ := Option.isSome_iff_exists.mp h
      obtain ⟨hlex, hparse, hbind, _⟩ := of_predicate hp
      exact ⟨hlex, hparse, hbind⟩
    · rintro ⟨hlex, hparse, hbind⟩
      exact isSome_of_no_errors hlex hparse hbind
  have hsilent : (ofText schema limits text).predicate = none ↔
      (ofText schema limits text).diagnostics ≠ [] := by
    rw [Ne, diagnostics_eq_nil, ← hlaw, Bool.not_eq_true, Option.isSome_eq_false_iff,
      Option.isNone_iff_eq_none]
  have hcount : (ofText schema limits text).predicate = none ↔
      0 < (ofText schema limits text).errorCount := by
    rw [hsilent, ← length_diagnostics, List.length_pos_iff]
  refine ⟨hlaw, hcount, ?_, ?_⟩
  · intro failure
    rw [toResult_eq_error, hcount]
    constructor
    · rintro ⟨hpos, rfl⟩
      exact ⟨rfl, hpos⟩
    · rintro ⟨rfl, hpos⟩
      exact ⟨hpos, rfl⟩
  · intro message
    rw [toExcept_eq_error, hsilent]
    constructor
    · rintro ⟨hsome, rfl⟩
      obtain ⟨d, ds, hds⟩ := List.exists_cons_of_ne_nil hsome
      exact ⟨d, ds, hds, text_failure hds⟩
    · rintro ⟨d, ds, hds, rfl⟩
      exact ⟨by rw [hds]; exact List.cons_ne_nil d ds, (text_failure hds).symm⟩

end Outcome

end FilterQuery
