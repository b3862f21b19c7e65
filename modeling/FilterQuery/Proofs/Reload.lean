/-
FilterQuery.Proofs.Reload — a schema that is saved is loaded again.

A saved schema is a JSON text with one member for each field, in the order
of the names (`Schema.SavedAs`). Layout does not matter, and neither does
the order of the members of a field: the reader looks members up by name,
so for a list without a name twice the order is of no account
(`onlyMember?_perm`). Every type of field is told apart by its members
and read back (`Field.field_reading`).

Fields are put into a schema one by one. As they come in the order of
their names, each goes to the end (`insertInto_of_lt`), and what has been
loaded is what was saved (`addFields_of_saved`). So the text is never of
the wrong shape, and the only thing that can still be wrong is what
validation finds wrong with the schema itself.
-/
import FilterQuery.Proofs.JsonText
import FilterQuery.Schema.Json
import Mathlib.Data.List.Forall2

namespace FilterQuery

/-! ## 1. Members in any order -/

namespace Json

/-- Of members without a name twice, at most one has a given name. -/
theorem length_filter_name_le {ms : List (String × Reading)} (h : (ms.map Prod.fst).Nodup)
    (key : String) : (ms.filter (·.1 == key)).length ≤ 1 := by
  have hnames : ∀ name ∈ (ms.filter (·.1 == key)).map Prod.fst, name = key := by
    intro name hname
    obtain ⟨m, hm, rfl⟩ := List.mem_map.mp hname
    exact beq_iff_eq.mp (List.mem_filter.mp hm).2
  have hnodup : ((ms.filter (·.1 == key)).map Prod.fst).Nodup :=
    (List.filter_sublist.map Prod.fst).nodup h
  rw [List.eq_replicate_of_mem hnames, List.length_map] at hnodup
  exact List.nodup_replicate.mp hnodup

/-- The order of members does not matter where no name comes twice. -/
theorem onlyMember?_perm {ms ns : List (String × Reading)} (hperm : ms.Perm ns)
    (h : (ns.map Prod.fst).Nodup) (key : String) : onlyMember? key ms = onlyMember? key ns := by
  have hfilter : ms.filter (·.1 == key) = ns.filter (·.1 == key) := by
    have hle := length_filter_name_le h key
    have hp := hperm.filter (·.1 == key)
    generalize ns.filter (·.1 == key) = xs at hle hp ⊢
    cases xs with
    | nil => exact hp.eq_nil
    | cons x xs =>
      obtain rfl : xs = [] :=
        List.eq_nil_of_length_eq_zero (Nat.le_zero.mp (Nat.le_of_succ_le_succ hle))
      exact List.perm_singleton.mp hp
  unfold onlyMember?
  rw [hfilter]

/-- The type that members describe does not depend on their order. -/
theorem fieldType_perm {ms ns : List (String × Reading)} (hperm : ms.Perm ns)
    (h : (ns.map Prod.fst).Nodup) : fieldType ms = fieldType ns := by
  unfold fieldType dateFormat enumVariants
  simp only [onlyMember?_perm hperm h]

/-- Any other member has no influence on the flag. -/
theorem nullableFlag_cons {key : String} {value : Reading} {ms : List (String × Reading)}
    (flag : Option Bool) (hkey : key ≠ "nullable") (hvalue : value.fault? = none) :
    nullableFlag flag ((key, value) :: ms) = nullableFlag flag ms := by
  rw [nullableFlag.eq_def]
  simp only [hkey, hvalue, if_false]

/-- Without a member `nullable`, the flag stays as it is. -/
theorem nullableFlag_of_absent {ms : List (String × Reading)} (flag : Option Bool)
    (habsent : "nullable" ∉ ms.map Prod.fst) (hfault : ∀ m ∈ ms, m.2.fault? = none) :
    nullableFlag flag ms = .ok flag := by
  induction ms with
  | nil => rfl
  | cons m ms ih =>
    obtain ⟨hvalue, hrest⟩ := List.forall_mem_cons.mp hfault
    rw [List.map_cons, List.mem_cons, not_or] at habsent
    rw [nullableFlag_cons flag (Ne.symm habsent.1) hvalue]
    exact ih habsent.2 hrest

/-- The member `nullable` is found wherever it stands. -/
theorem nullableFlag_of_mem {ms : List (String × Reading)} {b : Bool}
    (hmem : ("nullable", .boolean b) ∈ ms) (hnodup : (ms.map Prod.fst).Nodup)
    (hfault : ∀ m ∈ ms, m.2.fault? = none) : nullableFlag none ms = .ok (some b) := by
  induction ms with
  | nil => cases hmem
  | cons m ms ih =>
    obtain ⟨hvalue, hrest⟩ := List.forall_mem_cons.mp hfault
    obtain ⟨hkey, hnodup⟩ := List.nodup_cons.mp hnodup
    rcases List.mem_cons.mp hmem with rfl | hmem
    · rw [nullableFlag, if_pos rfl]
      exact nullableFlag_of_absent (some b) hkey hrest
    · have hne : m.1 ≠ "nullable" := by
        intro heq
        rw [heq] at hkey
        exact hkey (List.mem_map.mpr ⟨_, hmem, rfl⟩)
      rw [nullableFlag_cons none hne hvalue]
      exact ih hmem hnodup hrest

theorem strings?_itemReadings (vs : List String) :
    strings? (itemReadings (vs.map .string)) = some vs := by
  unfold strings?
  induction vs with
  | nil => rfl
  | cons v vs ih =>
    rw [List.map_cons, itemReadings, List.mapM_cons, ih]
    rfl

/-- A list of strings is read as the list of an enumeration. -/
theorem enumVariants_of_onlyMember? {ms : List (String × Reading)} {vs : List String}
    (h : onlyMember? "variants" ms = .ok (some (reading (.array (vs.map .string))))) :
    enumVariants ms = .ok vs := by
  rw [enumVariants, h, reading]
  simp only [bind, Except.bind, strings?_itemReadings]

end Json

open Json

/-! ## 2. Fields -/

/-- Whether a JSON value is a saved field: the members of the field, in any
order. -/
inductive Field.SavedAs (field : Field) : Json → Prop
  | members {written members : List (String × Json)} (base : field.toJson = .object written)
      (order : members.Perm written) : SavedAs field (.object members)

namespace Field

/-- What is written of a field: no name twice, the flag, and what belongs to the
type. -/
theorem of_toJson {field : Field} {written : List (String × Json)}
    (h : field.toJson = .object written) :
    (written.map Prod.fst).Nodup ∧ ("nullable", .boolean field.nullable) ∈ written ∧
      fieldType (memberReadings written) = .ok field.type := by
  obtain ⟨type, nullable⟩ := field
  cases type with
  | string | number | boolean =>
    cases h
    exact ⟨by simp, by simp, rfl⟩
  | date format =>
    cases format with
    | none =>
      cases h
      exact ⟨by simp, by simp, rfl⟩
    | some format =>
      cases h
      exact ⟨by simp, by simp, rfl⟩
  | enum variants =>
    cases h
    refine ⟨by simp, by simp, ?_⟩
    have hvariants : enumVariants (memberReadings [("nullable", .boolean nullable),
        ("type", .string "enum"), ("variants", .array (variants.map .string))]) = .ok variants :=
      enumVariants_of_onlyMember? rfl
    simp only [fieldType, hvariants, FieldType.name]
    rfl

/-- What is written of a field is an object without numbers, and the field saved. -/
theorem savedAs_toJson (field : Field) (depth : Nat) :
    field.SavedAs field.toJson ∧ field.toJson.Plain (depth + 2) := by
  obtain ⟨type, nullable⟩ := field
  cases type with
  | string | number | boolean =>
    refine ⟨.members rfl (.refl _), .object ?_⟩
    simp only [List.forall_mem_cons]
    exact ⟨.boolean _, .string _, by simp⟩
  | date format =>
    cases format with
    | none =>
      refine ⟨.members rfl (.refl _), .object ?_⟩
      simp only [List.forall_mem_cons]
      exact ⟨.null, .boolean _, .string _, by simp⟩
    | some format =>
      refine ⟨.members rfl (.refl _), .object ?_⟩
      simp only [List.forall_mem_cons]
      exact ⟨.string _, .boolean _, .string _, by simp⟩
  | enum variants =>
    refine ⟨.members rfl (.refl _), .object ?_⟩
    simp only [List.forall_mem_cons]
    refine ⟨.boolean _, .string _, .array ?_, by simp⟩
    intro j hj
    obtain ⟨v, _, rfl⟩ := List.mem_map.mp hj
    exact .string v

/-- A saved field is read as the field. -/
theorem field_reading {field : Field} {j : Json} (h : field.SavedAs j) :
    Json.field j.reading = .ok field := by
  cases h with
  | @members written members base order =>
    obtain ⟨hnodup, hmem, htype⟩ := of_toJson base
    have hperm : (memberReadings members).Perm (memberReadings written) := by
      rw [memberReadings_eq_map, memberReadings_eq_map]
      exact order.map _
    have hnames : (memberReadings written).map Prod.fst = written.map Prod.fst := by
      rw [memberReadings_eq_map, List.map_map]
      rfl
    rw [← hnames] at hnodup
    have hnullable : ("nullable", .boolean field.nullable) ∈ memberReadings members := by
      rw [hperm.mem_iff, memberReadings_eq_map]
      exact List.mem_map.mpr ⟨_, hmem, rfl⟩
    have hfault : ∀ m ∈ memberReadings members, m.2.fault? = none := by
      rw [memberReadings_eq_map]
      intro m hm
      obtain ⟨m', _, rfl⟩ := List.mem_map.mp hm
      exact fault?_reading m'.2
    have hflag := nullableFlag_of_mem hnullable ((hperm.map Prod.fst).nodup_iff.mpr hnodup) hfault
    rw [← fieldType_perm hperm hnodup] at htype
    rw [reading, Json.field, hflag]
    simp only [bind, Except.bind, htype]
    rfl

end Field

/-! ## 3. Schemas -/

/-- Whether a text is a saved schema: its fields in order, each with its members
in any order, in any layout. -/
def Schema.SavedAs (s : Schema) (text : String) : Prop :=
  ∃ members, List.Forall₂ (fun x m => m.1 = x.1 ∧ x.2.SavedAs m.2) s.fields members ∧
    TextOf maxBrackets (.object members) text.toList

namespace Schema

/-- A field whose name comes behind all others goes to the end. -/
theorem insertInto_of_lt {name : String} {field : Field} {fs : List (String × Field)}
    (h : ∀ x ∈ fs, x.1 < name) : insertInto name field fs = fs ++ [(name, field)] := by
  induction fs with
  | nil => rfl
  | cons x fs ih =>
    obtain ⟨n, f⟩ := x
    obtain ⟨hlt, h⟩ := List.forall_mem_cons.mp h
    rw [insertInto, if_neg (String.lt_asymm hlt), if_neg (String.ne_of_lt hlt).symm, ih h]
    rfl

/-- Saved fields are added behind those that are there. -/
theorem addFields_of_saved {fs : List (String × Field)} {ms : List (String × Json)}
    (h : List.Forall₂ (fun x m => m.1 = x.1 ∧ x.2.SavedAs m.2) fs ms) (s : Schema)
    (hordered : (s.fields ++ fs).Pairwise fun a b => a.1 < b.1) :
    ∃ t, addFields s (memberReadings ms) = .ok t ∧ t.fields = s.fields ++ fs := by
  induction h generalizing s with
  | nil => exact ⟨s, rfl, (List.append_nil _).symm⟩
  | @cons x m fs ms hm _ ih =>
    obtain ⟨_, field⟩ := x
    obtain ⟨name, j⟩ := m
    obtain ⟨rfl, hj⟩ := hm
    have hlt : ∀ y ∈ s.fields, y.1 < name := fun y hy =>
      (List.pairwise_append.mp hordered).2.2 y hy _ List.mem_cons_self
    have hfields : (s.insert name field).fields = s.fields ++ [(name, field)] :=
      insertInto_of_lt hlt
    rw [List.append_cons, ← hfields] at hordered
    obtain ⟨t, ht, htfields⟩ := ih (s.insert name field) hordered
    refine ⟨t, ?_, by rw [htfields, hfields, List.append_assoc]; rfl⟩
    rw [memberReadings, addFields, Field.field_reading hj]
    exact ht

/-- A saved schema is loaded as the schema, as far as it may be used. -/
theorem ofText_of_savedAs {s : Schema} {text : String} (h : s.SavedAs text) :
    Schema.ofText text = s.checked := by
  obtain ⟨members, hmembers, htext⟩ := h
  obtain ⟨t, ht, hfields⟩ := addFields_of_saved hmembers .empty s.ordered
  obtain rfl : t = s := by
    cases t
    cases s
    cases hfields
    rfl
  have hschema : Json.schema (Json.object members).reading = .ok t := by
    rw [reading, Json.schema, ht]
    rfl
  rw [Schema.ofText, read_of_textOf htext]
  simp only [hschema]
  rfl

theorem toJson_eq (s : Schema) : s.toJson = .object (s.fields.map fun x => (x.1, x.2.toJson)) := rfl

/-- A schema is written without numbers, and with few enough brackets. -/
theorem plain_toJson (s : Schema) : s.toJson.Plain maxBrackets := by
  refine .object fun m hm => ?_
  obtain ⟨x, _, rfl⟩ := List.mem_map.mp hm
  exact (x.2.savedAs_toJson 124).2

/-- Every text of the JSON of a schema is the schema saved. -/
theorem savedAs_of_textOf {s : Schema} {text : String}
    (h : TextOf maxBrackets s.toJson text.toList) : s.SavedAs text := by
  rw [toJson_eq] at h
  refine ⟨_, ?_, h⟩
  rw [List.forall₂_map_right_iff, List.forall₂_same]
  exact fun x _ => ⟨rfl, (x.2.savedAs_toJson 0).1⟩

/-- **A schema that is saved is loaded again**, whatever the names, the variants
and the formats in it are. Both forms the library writes are the schema saved,
and from every text that is:

* if validation finds nothing wrong with the schema, the same schema is loaded;
* if it does, loading fails with just that error;
* so the text is never found to be no JSON, or of the wrong shape. -/
theorem ofText_saved (s : Schema) :
    s.SavedAs s.toJson.compact ∧ s.SavedAs s.toJson.pretty ∧
      ∀ text, s.SavedAs text →
        (s.validate = .ok () → Schema.ofText text = .ok s) ∧
        (∀ e, s.validate = .error e → Schema.ofText text = .error (.field e)) ∧
        ∀ e, Schema.ofText text ≠ .error (.json e) := by
  refine ⟨savedAs_of_textOf (textOf_compact s.plain_toJson),
    savedAs_of_textOf (textOf_pretty s.plain_toJson), ?_⟩
  intro text h
  rw [ofText_of_savedAs h, checked]
  cases hvalid : s.validate with
  | ok u => exact ⟨fun _ => rfl, by rintro e ⟨⟩, by rintro e ⟨⟩⟩
  | error e =>
    refine ⟨by rintro ⟨⟩, ?_, by rintro e ⟨⟩⟩
    rintro e ⟨⟩
    rfl

/-- A field by the name of an operator is refused for its name, not for the `null`
in front of it or for the list with nothing in it. -/
theorem ofText_saved_of_reserved :
    let s := (Schema.empty.insert "or" ⟨.enum [], false⟩).insert "at" ⟨.date none, true⟩
    s.toJson.compact = "\x7b\"at\":\x7b\"format\":null,\"nullable\":true,\"type\":\"date\"\x7d," ++
        "\"or\":\x7b\"nullable\":false,\"type\":\"enum\",\"variants\":[]\x7d\x7d" ∧
      s.validate = .error (.reservedName "or") ∧
      Schema.ofText s.toJson.compact = .error (.field (.reservedName "or")) := by
  intro s
  have hvalidate : s.validate = .error (.reservedName "or") := by decide +kernel
  obtain ⟨hcompact, _, hload⟩ := ofText_saved s
  exact ⟨by decide +kernel, hvalidate, (hload _ hcompact).2.1 _ hvalidate⟩

end Schema

end FilterQuery
