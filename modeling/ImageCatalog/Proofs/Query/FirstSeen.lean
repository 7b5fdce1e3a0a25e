import ImageCatalog.Catalog.Annotation
import ImageCatalog.Proofs.Query.Semijoin
import ImageCatalog.Proofs.Value.Membership

/-! The values of a field, each once. A scan that stores what it does not find stores the first value
of every class, in the order of the places where the classes first occur; so what a table lists of a
field are the values of the records that are the first to have theirs. -/

set_option autoImplicit false

namespace ImageCatalog

namespace Value

/-- The value at a place of a list, if no earlier one answers for it. -/
structure FirstAt (vs : List Value) (place : Nat) (v : Value) : Prop where
  value : vs[place]? = some v
  first : ∀ w ∈ vs.take place, w.answersFor v = false

private theorem distinctFrom_append (stored vs ws : List Value) :
    distinctFrom stored (vs ++ ws) = distinctFrom (distinctFrom stored vs) ws := by
  induction vs generalizing stored with
  | nil => rfl
  | cons v vs ih =>
    rw [List.cons_append, distinctFrom, distinctFrom]
    split
    · exact ih stored
    · exact ih (stored ++ [v])

theorem distinct_concat (vs : List Value) (v : Value) :
    distinct (vs ++ [v]) = if v.foundIn vs then distinct vs else distinct vs ++ [v] := by
  rw [distinct, distinctFrom_append, ← distinct, distinctFrom, foundIn_distinct, distinctFrom,
    distinctFrom]

theorem firstAt_concat_iff {vs : List Value} {v w : Value} {place : Nat} :
    FirstAt (vs ++ [v]) place w ↔
      FirstAt vs place w ∨ place = vs.length ∧ w = v ∧ v.foundIn vs = false := by
  have fresh : v.foundIn vs = false ↔ ∀ u ∈ vs, u.answersFor v = false := by
    rw [foundIn, List.any_eq_false]
    simp only [Bool.not_eq_true]
  constructor
  · rintro ⟨value, first⟩
    rcases Nat.lt_or_ge place vs.length with before | past
    · rw [List.getElem?_append_left before] at value
      rw [List.take_append_of_le_length (Nat.le_of_lt before)] at first
      exact Or.inl ⟨value, first⟩
    · obtain ⟨here, rfl⟩ : place = vs.length ∧ w = v := by
        rw [List.getElem?_append_right past, List.getElem?_singleton] at value
        obtain ⟨zero, same⟩ := Option.ite_none_right_eq_some.1 value
        exact ⟨by omega, (Option.some.inj same).symm⟩
      subst here
      rw [List.take_left] at first
      exact Or.inr ⟨rfl, rfl, fresh.2 first⟩
  · rintro (⟨value, first⟩ | ⟨rfl, rfl, missing⟩)
    · have before := (List.getElem?_eq_some_iff.1 value).1
      refine ⟨by rw [List.getElem?_append_left before, value], ?_⟩
      rw [List.take_append_of_le_length (Nat.le_of_lt before)]
      exact first
    · refine ⟨by rw [List.getElem?_concat_length], ?_⟩
      rw [List.take_left]
      exact fresh.1 missing

/-- The stored values are those at the first places of all classes, in the order of the places. -/
theorem exists_firsts_distinct (vs : List Value) :
    ∃ firsts : List (Nat × Value), firsts.map Prod.snd = distinct vs ∧
      (firsts.map Prod.fst).Pairwise (· < ·) ∧
      ∀ place v, (place, v) ∈ firsts ↔ FirstAt vs place v := by
  induction vs using List.reverseRecOn with
  | nil =>
    refine ⟨[], rfl, List.Pairwise.nil, fun place v => ?_⟩
    exact iff_of_false List.not_mem_nil fun first => nomatch first.value
  | append_singleton vs v ih =>
    obtain ⟨firsts, values, ascending, places⟩ := ih
    rw [distinct_concat]
    cases found : v.foundIn vs with
    | true =>
      refine ⟨firsts, values, ascending, fun place w => ?_⟩
      rw [places, firstAt_concat_iff, found]
      simp
    | false =>
      refine ⟨firsts ++ [(vs.length, v)], by simp [values], ?_, fun place w => ?_⟩
      · rw [List.map_append, List.pairwise_append]
        refine ⟨ascending, List.pairwise_singleton _ _, fun place mem last here => ?_⟩
        obtain ⟨⟨_, w⟩, among, rfl⟩ := List.mem_map.1 mem
        obtain rfl : last = vs.length := List.mem_singleton.1 here
        exact (List.getElem?_eq_some_iff.1 ((places _ w).1 among).value).1
      · rw [List.mem_append, places, firstAt_concat_iff, found]
        simp

end Value

namespace Table

variable {α : Type} [Record α]

open Record (field?)

structure FirstWith (t : Table α) (field : String) (place : Nat) (v : Value) : Prop where
  value : t.records[place]?.bind (field? · field) = some v
  first : ∀ r ∈ t.records.take place, (field? r field == some v) = false

theorem map_field?_eq {t : Table α} {field : String} (resolves : t.Resolves field) :
    t.records.map (field? · field) = (t.valuesOf field).map some := by
  rw [valuesOf, List.map_filterMap, ← List.filterMap_eq_map]
  refine List.filterMap_congr fun r mem => ?_
  obtain ⟨v, value⟩ := Option.isSome_iff_exists.1 (resolves.each r mem)
  rw [Function.comp_apply, value, Option.map_some]

theorem firstWith_iff_firstAt {t : Table α} {field : String} (resolves : t.Resolves field)
    {nan : Binary64} (uniform : ∀ v ∈ t.valuesOf field, ∀ x ∈ v.nans, x = nan) {place : Nat}
    {v : Value} : t.FirstWith field place v ↔ Value.FirstAt (t.valuesOf field) place v := by
  have column := map_field?_eq resolves
  have values : t.records[place]?.bind (field? · field) = (t.valuesOf field)[place]? := by
    have here := congrArg (fun fields => fields[place]?.bind id) column
    simpa only [List.getElem?_map, Option.bind_map, Function.id_comp, Option.bind_fun_some] using here
  have earlier : (∀ r ∈ t.records.take place, (field? r field == some v) = false) ↔
      ∀ w ∈ (t.valuesOf field).take place, (w == v) = false := by
    have before := congrArg (fun fields => ∀ f ∈ fields.take place, (f == some v) = false) column
    simpa only [← List.map_take, List.forall_mem_map, Option.some_beq_some, eq_iff_iff] using before
  have answers : v ∈ t.valuesOf field → ((∀ w ∈ (t.valuesOf field).take place, (w == v) = false) ↔
      ∀ w ∈ (t.valuesOf field).take place, w.answersFor v = false) := by
    intro listed
    refine forall₂_congr fun w mem => ?_
    rw [Value.answersFor_eq_beq (uniform w (List.mem_of_mem_take mem)) (uniform v listed)]
  constructor
  · rintro ⟨value, first⟩
    rw [values] at value
    exact ⟨value, (answers (List.mem_of_getElem? value)).1 (earlier.1 first)⟩
  · rintro ⟨value, first⟩
    exact ⟨values.trans value, earlier.2 ((answers (List.mem_of_getElem? value)).2 first)⟩

/-- The list of the values of a field. It fails iff the kind or some record has no such field, and
then with that fault. Otherwise no two of the values are equal, every record has one of them up to
equality, and they are the values of just those records, in their order, that no earlier record has
an equal value to. -/
theorem uniqueValues_firstSeen (t : Table α) (field : String) :
    (∀ fault, t.uniqueValues field = .error fault ↔
        fault = .fieldNotFound (Record.kind α) field ∧
          (Record.hasField α field = false ∨ ∃ r ∈ t.records, field? r field = none)) ∧
      (t.Resolves field → ∀ nan : Binary64, (∀ v ∈ t.valuesOf field, ∀ x ∈ v.nans, x = nan) →
        ∃ values, t.uniqueValues field = .ok values ∧
          values.Pairwise (fun v w => (v == w) = false) ∧
          (∀ r ∈ t.records, ∃ v ∈ values, (field? r field == some v) = true) ∧
          ∃ firsts : List (Nat × Value), firsts.map Prod.snd = values ∧
            (firsts.map Prod.fst).Pairwise (· < ·) ∧
            ∀ place v, (place, v) ∈ firsts ↔ t.FirstWith field place v) := by
  constructor
  · intro fault
    rw [← not_resolves_iff]
    by_cases resolves : t.Resolves field
    · rw [uniqueValues_of_resolves resolves]
      exact iff_of_false nofun fun fails => fails.2 resolves
    · rw [uniqueValues_of_not_resolves resolves, Except.error.injEq, eq_comm,
        and_iff_left resolves]
  · intro resolves nan uniform
    obtain ⟨firsts, values, ascending, places⟩ := Value.exists_firsts_distinct (t.valuesOf field)
    refine ⟨_, uniqueValues_of_resolves resolves, ?_, fun r mem => ?_, firsts, values, ascending,
      fun place v => ?_⟩
    · refine (Value.pairwise_distinct (t.valuesOf field)).imp_of_mem fun stored stored' apart => ?_
      rwa [Value.answersFor_eq_beq (uniform _ (Value.mem_of_mem_distinct stored))
        (uniform _ (Value.mem_of_mem_distinct stored'))] at apart
    · obtain ⟨v, value⟩ := Option.isSome_iff_exists.1 (resolves.each r mem)
      have listed : v ∈ t.valuesOf field := List.mem_filterMap.2 ⟨r, mem, value⟩
      have found : v.foundIn (Value.distinct (t.valuesOf field)) = true := by
        rw [Value.foundIn_distinct]
        exact Value.foundIn_iff.2 ⟨v, listed, Value.answersFor_self v⟩
      obtain ⟨w, stored, answers⟩ := Value.foundIn_iff.1 found
      refine ⟨w, stored, ?_⟩
      rw [value, Option.some_beq_some, Value.beq_comm]
      exact (Value.answersFor_iff_nans.1 answers).1
    · rw [places, firstWith_iff_firstAt resolves uniform]

/-- Annotations with outlines. The third has the same numbers as the first one, as the other kind
of numbers; two have none. -/
def outlined : Table Annotation where
  records :=
    [some (.array [.array [.number (.integer 1), .number (.float ⟨0x4000000000000000⟩)]]), none,
      some (.array [.array [.number (.float ⟨0x3ff0000000000000⟩), .number (.integer 2)]]),
      some (.array [.array [.number (.integer 1)]]), none].mapIdx fun i segmentation =>
        { id := .ofNat (i + 1), imageId := 1, categoryId := 1
          box := ⟨.zero, .zero, .zero, .zero⟩, segmentation }

/-- The values of the first, the second and the fourth annotation. -/
theorem outlined_firstSeen :
    outlined.Resolves "segmentation" ∧
      ∃ values, outlined.uniqueValues "segmentation" = .ok values ∧
        values.map Value.render = ["[[1, 2.0]]", "null", "[[1]]"] ∧
        values.Pairwise (fun v w => (v == w) = false) ∧
        (∀ r ∈ outlined.records, ∃ v ∈ values, (field? r "segmentation" == some v) = true) ∧
        ∃ firsts : List (Nat × Value), firsts.map Prod.snd = values ∧
          (firsts.map Prod.fst).Pairwise (· < ·) ∧
          ∀ place v, (place, v) ∈ firsts ↔ outlined.FirstWith "segmentation" place v := by
  have resolves : outlined.Resolves "segmentation" := ⟨by decide, by decide⟩
  obtain ⟨values, listed, spec⟩ := (uniqueValues_firstSeen outlined "segmentation").2 resolves
    (.quietNaN false) (by decide +kernel)
  have texts : (outlined.uniqueValues "segmentation").toOption.map (List.map Value.render) =
      some ["[[1, 2.0]]", "null", "[[1]]"] := by decide +kernel
  rw [listed] at texts
  exact ⟨resolves, values, listed, Option.some.inj texts, spec⟩

end Table

end ImageCatalog
