/-
FilterQuery.Proofs.FieldNames — a schema accepts just the names that a
query can use.

What a name is, is said three times: by the pattern that names of fields
are checked against, by the scanner, which cuts words out of a text, and by the
list of reserved words, which have another meaning when they are read. They
agree: a text matches the pattern and is not reserved exactly if it is read as
one identifier and nothing else.

So validation refuses a name exactly if no query could ever name the field. A
query that names a field has its name among its identifiers
(`Outcome.named_of_predicate`), and for a name that passes there is always
one that does: `isNull` of the field, whatever its type is
(`Outcome.ofText_isNull`).
-/
import FilterQuery.Proofs.Patterns
import FilterQuery.Proofs.RoundTrip

namespace FilterQuery

/-! ## 1. Names alone -/

/-- A name that can be used is read as an identifier and nothing else. -/
theorem readFrom_of_isFieldName {name : String} (h : IsFieldName name) (p : Position) :
    readFrom p name.toList = ([⟨.identifier name, name, p⟩], []) := by
  obtain ⟨hname, hreserved⟩ := h
  have hkind : Token.Kind.ofWord name = .identifier name :=
    Token.Kind.ofWord_eq_identifier.mpr ⟨rfl, hreserved⟩
  unfold isName at hname
  split at hname
  · cases hname
  · next c cs hchars =>
    rw [Bool.and_eq_true] at hname
    have hword : Lexicon.Word p (c :: cs) [] (.ofWord (String.ofList (c :: cs))) [] :=
      .name hname.1 hname.2 (by rintro d ⟨⟩)
    rw [← hchars, String.ofList_toList, hkind] at hword
    simpa only [String.ofList_toList] using hword.readFrom

/-! ## 2. Names in predicates -/

/-- Whether a predicate names a field anywhere. -/
inductive Predicate.Mentions (name : String) : Predicate → Prop
  | comparison {op : CompareOp} {values : List Value} : Mentions name (.comparison name op values)
  | combinator {op : LogicalOp} {children : List Predicate} {child : Predicate}
      (mem : child ∈ children) (mentions : child.Mentions name) :
      Mentions name (.combinator op children)

/-- What is true of every name in a predicate is true of one that it mentions. -/
theorem Predicate.Named.of_mentions {P : String → Prop} {p : Predicate} {name : String}
    (h : p.Named P) (hmentions : p.Mentions name) : P name := by
  induction hmentions with
  | comparison =>
    cases h with
    | comparison ofName => exact ofName
  | combinator mem _ ih =>
    cases h with
    | combinator ofChildren => exact ih (ofChildren _ mem)

/-- Validation finds nothing wrong with a name exactly if it can be used. -/
theorem Field.isFieldName_iff {name : String} {field : Field} :
    (field.error? name ≠ some (.invalidName name) ∧
      field.error? name ≠ some (.reservedName name)) ↔ IsFieldName name := by
  unfold error? IsFieldName
  cases isName name with
  | false => simp
  | true =>
    cases isReserved name with
    | true => simp
    | false =>
      simp only [Bool.not_true, Bool.false_eq_true, if_false, and_self, iff_true]
      split <;> simp

/-- A field whose name can be used is asked whether it is null. -/
theorem Outcome.ofText_isNull {schema : Schema} {name : String} {field : Field} {limits : Limits}
    (hname : IsFieldName name) (hget : schema.get? name = some field)
    (hdepth : 1 ≤ limits.maxDepth)
    (hlength : ("isNull(" ++ name ++ ")").utf8ByteSize ≤ limits.maxInputLength) :
    Outcome.ofText schema limits ("isNull(" ++ name ++ ")") =
      ⟨some (.comparison name .isNull []), [], [], []⟩ := by
  have htext : (Predicate.comparison name .isNull []).text = "isNull(" ++ name ++ ")" := by
    rw [Predicate.text_comparison, List.map_nil, String.intercalate_singleton]
    rfl
  have hreads := @reads_comparison _ _ _ .isNull [] hname hget rfl (List.forall_mem_nil _)
    (by rintro ⟨⟩)
  rw [htext] at hreads
  obtain ⟨⟨e, he, hrebinds⟩, hlex⟩ := hreads.ofText
  obtain ⟨q, hq, hreread⟩ := hrebinds.predicate
  obtain rfl : q = .comparison name .isNull [] := by
    cases hreread with
    | comparison _ values =>
      cases values
      rfl
  have hceiling : 1 ≤ depthCeiling := by decide
  exact Outcome.ofText_of_sentence hlength hlex he
    (Nat.le_trans hrebinds.nesting_le (Nat.le_min.mpr ⟨hdepth, hceiling⟩))
    hrebinds.unknownHeads_eq_nil hq

/-! ## 3. The law -/

/-- **Validation and the scanner mean the same by a name.**

* A text matches the pattern of names and is not reserved exactly if it is read, alone,
  without an error and as one identifier, which is the whole text.
* So a field of a schema is named by the predicate of some query exactly if neither of the
  two checks of its name finds anything, and then `isNull` of it is such a query. The
  limits only have to allow one call and the length of that query. -/
theorem Schema.named_iff_validated (name : String) :
    (name.toList ∈ Pattern.name ∧ isReserved name = false ↔
      (Lexed.ofText name).errors = [] ∧
        ∃ p, (Lexed.ofText name).tokens = [⟨.identifier name, name, p⟩]) ∧
    ∀ (schema : Schema) (field : Field) (limits : Limits), schema.get? name = some field →
      1 ≤ limits.maxDepth → ("isNull(" ++ name ++ ")").utf8ByteSize ≤ limits.maxInputLength →
      ((∃ text p, (Outcome.ofText schema limits text).predicate = some p ∧ p.Mentions name) ↔
        field.error? name ≠ some (.invalidName name) ∧
          field.error? name ≠ some (.reservedName name)) ∧
      (field.error? name ≠ some (.invalidName name) →
        field.error? name ≠ some (.reservedName name) →
        Outcome.ofText schema limits ("isNull(" ++ name ++ ")") =
          ⟨some (.comparison name .isNull []), [], [], []⟩) := by
  constructor
  · rw [← isName_iff]
    constructor
    · intro h
      have hread := readFrom_of_isFieldName h .start
      exact ⟨congrArg Prod.snd hread, .start, congrArg Prod.fst hread⟩
    · rintro ⟨_, p, htokens⟩
      exact Lexed.identifier_of_mem (htokens ▸ List.mem_singleton_self _) name rfl
  · intro schema field limits hget hdepth hlength
    have hnull (h : IsFieldName name) := Outcome.ofText_isNull h hget hdepth hlength
    refine ⟨⟨?_, ?_⟩, fun hvalid hfree => hnull (Field.isFieldName_iff.mp ⟨hvalid, hfree⟩)⟩
    · rintro ⟨text, p, hp, hmentions⟩
      exact Field.isFieldName_iff.mpr ((Outcome.named_of_predicate hp).of_mentions hmentions)
    · intro h
      have houtcome := hnull (Field.isFieldName_iff.mp h)
      exact ⟨_, _, congrArg Outcome.predicate houtcome, .comparison⟩

/-- The limits leave just enough for `isNull(due)`. The other field has the name of an
operator, so no query names it. -/
theorem Schema.named_iff_validated_of_or :
    let schema := (Schema.empty.insert "due" ⟨.date none, false⟩).insert "or" ⟨.string, true⟩
    let limits : Limits := { maxDepth := 1, maxInputLength := 11 }
    ("due".toList ∈ Pattern.name ∧ isReserved "due" = false) ∧
      Outcome.ofText schema limits "isNull(due)" =
        ⟨some (.comparison "due" .isNull []), [], [], []⟩ ∧
      schema.validate = .error (.reservedName "or") ∧
      ¬∃ text p, (Outcome.ofText schema limits text).predicate = some p ∧ p.Mentions "or" := by
  intro schema limits
  obtain ⟨hname, hdue⟩ := Schema.named_iff_validated "due"
  have hread : (Lexed.ofText "due").errors = [] ∧
      ∃ p, (Lexed.ofText "due").tokens = [⟨.identifier "due", "due", p⟩] :=
    ⟨by decide +kernel, .start, by decide +kernel⟩
  obtain ⟨_, hisNull⟩ := hdue schema ⟨.date none, false⟩ limits rfl (by decide) (by decide)
  obtain ⟨hor, _⟩ := (Schema.named_iff_validated "or").2 schema ⟨.string, true⟩ limits rfl
    (by decide) (by decide)
  refine ⟨hname.mpr hread, hisNull (by decide) (by decide), by decide +kernel, ?_⟩
  exact fun h => absurd rfl (hor.mp h).2

end FilterQuery
