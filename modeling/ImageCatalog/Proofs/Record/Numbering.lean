import ImageCatalog.Proofs.Query.Selection
import Mathlib.Data.List.Nodup

/-! The numbers of the records in a table that is edited over and over. Every edit keeps the numbers
in use, drops some of them, or adds one at the end that the table admits; so what holds of an empty
table and is kept by these three holds after every run of edits. -/

set_option autoImplicit false

namespace ImageCatalog

namespace Table

variable {α : Type} [Record α]

open Record (idOf withId)

def ids (t : Table α) : List RecordId := t.records.map idOf

theorem containsId_iff {t : Table α} {n : RecordId} : t.containsId n = true ↔ n ∈ t.ids := by
  simp [containsId, ids]

private theorem le_max_left (m n : RecordId) : m ≤ max m n := by
  change m ≤ if m ≤ n then n else m
  split
  · next le => exact le
  · exact UInt64.le_refl m

private theorem le_max_right (m n : RecordId) : n ≤ max m n := by
  change n ≤ if m ≤ n then n else m
  split
  · exact UInt64.le_refl n
  · next nle => exact UInt64.le_of_lt (UInt64.not_le.1 nle)

private theorem le_foldl_max (rs : List α) (last : RecordId) :
    last ≤ rs.foldl (fun last r => max last (idOf r)) last ∧
      ∀ r ∈ rs, idOf r ≤ rs.foldl (fun last r => max last (idOf r)) last := by
  induction rs generalizing last with
  | nil => simp
  | cons r rs ih =>
    obtain ⟨start, others⟩ := ih (max last (idOf r))
    refine ⟨UInt64.le_trans (le_max_left last (idOf r)) start, ?_⟩
    intro s member
    rcases List.mem_cons.1 member with rfl | later
    · exact UInt64.le_trans (le_max_right last (idOf s)) start
    · exact others s later

theorem le_lastId {t : Table α} {n : RecordId} (member : n ∈ t.ids) : n ≤ t.lastId := by
  obtain ⟨r, inside, rfl⟩ := List.mem_map.1 member
  exact (le_foldl_max t.records 0).2 r inside

theorem toNat_lastId_add_one {t : Table α} (room : t.lastId < maxRecordId) :
    (t.lastId + 1).toNat = t.lastId.toNat + 1 := by
  have bound := UInt64.lt_iff_toNat_lt.1 room
  have limit : maxRecordId.toNat = 2 ^ 63 - 1 := by decide
  rw [UInt64.toNat_add, UInt64.toNat_one]
  omega

theorem lt_lastId_add_one {t : Table α} (room : t.lastId < maxRecordId) {n : RecordId}
    (member : n ∈ t.ids) : n < t.lastId + 1 := by
  have below := UInt64.le_iff_toNat_le.1 (le_lastId member)
  rw [UInt64.lt_iff_toNat_lt, toNat_lastId_add_one room]
  omega

/-- What appending a record to a table comes to: success at the end of the table, or a fault with
the table as it was, each under its condition. -/
structure Appends (t : Table α) (r : α) : Prop where
  /-- An unnumbered record gets the next number as long as there is one. -/
  unnumbered : idOf r = 0 →
    (∃ n, t.append r = (.ok n, t.derive (t.records ++ [withId n r])) ∧
      n.toNat = t.lastId.toNat + 1 ∧ n ≤ maxRecordId ∧ ∀ m ∈ t.ids, m < n) ∨
    maxRecordId ≤ t.lastId ∧
      t.append r = (.error (.idOutOfRange (Record.kind α) t.lastId), t)
  /-- A numbered record keeps its number unless the number is out of range or taken. -/
  numbered : idOf r ≠ 0 →
    t.append r = (.ok (idOf r), t.derive (t.records ++ [r])) ∧ idOf r ≤ maxRecordId ∧
      (t.policy = .strict → idOf r ∉ t.ids) ∨
    maxRecordId < idOf r ∧ t.append r = (.error (.idOutOfRange (Record.kind α) (idOf r)), t) ∨
    t.policy = .strict ∧ idOf r ∈ t.ids ∧
      t.append r = (.error (.duplicateId (Record.kind α) (idOf r)), t)

theorem appends (t : Table α) (r : α) : t.Appends r := by
  constructor
  case unnumbered =>
    intro unnumbered
    by_cases room : t.lastId < maxRecordId
    · have next := toNat_lastId_add_one room
      have fits : t.lastId.toNat + 1 ≤ maxRecordId.toNat := UInt64.lt_iff_toNat_lt.1 room
      refine Or.inl ⟨t.lastId + 1, ?_, next, ?_, fun m member => lt_lastId_add_one room member⟩
      · simp [append, numbered, unnumbered, fits, Record.idOf_withId]
      · rw [UInt64.le_iff_toNat_le, next]
        exact fits
    · have full : maxRecordId ≤ t.lastId := UInt64.not_lt.1 room
      have past : ¬t.lastId.toNat + 1 ≤ maxRecordId.toNat := fun fits =>
        room (UInt64.lt_iff_toNat_lt.2 fits)
      exact Or.inr ⟨full, by simp [append, numbered, unnumbered, past]⟩
  case numbered =>
    intro given
    by_cases past : maxRecordId < idOf r
    · exact Or.inr (Or.inl ⟨past, by simp [append, numbered, given, past]⟩)
    · by_cases taken : t.policy = .strict ∧ t.containsId (idOf r)
      · refine Or.inr (Or.inr ⟨taken.1, containsId_iff.1 taken.2, ?_⟩)
        simp [append, numbered, given, past, taken]
      · refine Or.inl ⟨by simp [append, numbered, given, past, taken], UInt64.not_lt.1 past, ?_⟩
        exact fun strict member => taken ⟨strict, containsId_iff.2 member⟩

section Replacing

variable {t after : Table α} {old r : α}

/-- The second table is the first one with `r` in the place of `old`, its first record with the
number of `r`. -/
def Replacing (t : Table α) (old r : α) (after : Table α) : Prop :=
  ∃ before behind, t.records = before ++ old :: behind ∧ (∀ s ∈ before, idOf s ≠ idOf r) ∧
    idOf old = idOf r ∧ after = t.derive (before ++ r :: behind)

theorem Replacing.ids_eq (replacing : t.Replacing old r after) : after.ids = t.ids := by
  obtain ⟨before, behind, records, -, same, rfl⟩ := replacing
  simp [ids, derive, records, same]

theorem Replacing.mem_ids (replacing : t.Replacing old r after) : idOf r ∈ t.ids := by
  obtain ⟨before, behind, records, -, same, -⟩ := replacing
  exact List.mem_map.2 ⟨old, by simp [records], same⟩

theorem update_cases (t : Table α) (r : α) :
    idOf r ∉ t.ids ∧ t.get? (idOf r) = none ∧ t.update r = (none, t) ∨
      ∃ old after, t.get? (idOf r) = some old ∧ t.Replacing old r after ∧
        t.update r = (some (idOf r), after) := by
  cases found : t.get? (idOf r) with
  | none =>
    have others : ∀ s ∈ t.records, (idOf s == idOf r) = false := fun s mem =>
      Bool.eq_false_iff.2 (List.find?_eq_none.1 found s mem)
    have place : t.records.findIdx? (fun s => idOf s == idOf r) = none :=
      List.findIdx?_eq_none_iff.2 others
    refine Or.inl ⟨fun member => ?_, rfl, by rw [update, modify?, place]; rfl⟩
    obtain ⟨s, inside, same⟩ := List.mem_map.1 member
    exact beq_eq_false_iff_ne.1 (others s inside) same
  | some old =>
    obtain ⟨same, before, behind, records, others⟩ := List.find?_eq_some_iff_append.1 found
    have others : ∀ s ∈ before, (idOf s == idOf r) = false := fun s mem => by
      simpa using others s mem
    have place : t.records.findIdx? (fun s => idOf s == idOf r) = some before.length := by
      rw [records, List.findIdx?_append, List.findIdx?_eq_none_iff.2 others, List.findIdx?_cons,
        if_pos same]
      simp
    refine Or.inr ⟨old, _, rfl, ⟨before, behind, records, fun s mem => ?_, beq_iff_eq.1 same, rfl⟩,
      ?_⟩
    · exact beq_eq_false_iff_ne.1 (others s mem)
    · rw [update, modify?, place, records, Option.map_some, List.modify_eq_take_drop,
        List.take_left, List.drop_left, List.modifyHead_cons]

end Replacing

inductive Edit (α : Type) where
  | append (r : α)
  | update (r : α)
  | delete (n : RecordId)
  | deleteWhere (condition : α → Bool)
  | retain (p : Predicate)
  | retainMatching (q : Query)
  | selectInPlace (q : Query)

def edit (t : Table α) : Edit α → Table α
  | .append r => (t.append r).2
  | .update r => (t.update r).2
  | .delete n => (t.delete n).2
  | .deleteWhere condition => (t.deleteWhere condition).2
  | .retain p => (p.retain t).2
  | .retainMatching q => (t.retain q).2
  | .selectInPlace q => (t.select q true).2

structure Admits (t : Table α) (n : RecordId) : Prop where
  given : n ≠ 0
  bound : n ≤ maxRecordId
  free : t.policy = .strict → n ∉ t.ids

/-- A table that an edit can lead to: the policy is the same, and numbers are only dropped, but for
one that is added at the end. -/
structure LeadsTo (t after : Table α) : Prop where
  policy : after.policy = t.policy
  ids : after.ids.Sublist t.ids ∨ ∃ n, t.Admits n ∧ after.ids = t.ids ++ [n]

namespace LeadsTo

variable {t after : Table α}

theorem refl (t : Table α) : t.LeadsTo t := ⟨rfl, Or.inl (List.Sublist.refl _)⟩

theorem of_sublist {records : List α} (fewer : records.Sublist t.records) :
    t.LeadsTo (t.derive records) :=
  ⟨rfl, Or.inl (fewer.map idOf)⟩

theorem of_run {p : Predicate} (result : p.run t = .ok after) : t.LeadsTo after := by
  rw [Predicate.run_eq_keep] at result
  obtain ⟨kept, keep, rfl⟩ := map_eq_ok_iff.1 result
  obtain ⟨-, rfl⟩ := Predicate.keep_eq_ok_iff.1 keep
  exact of_sublist List.filter_sublist

theorem of_append (t : Table α) (r : α) : t.LeadsTo (t.append r).2 := by
  have spec := t.appends r
  by_cases unnumbered : idOf r = 0
  · rcases spec.unnumbered unnumbered with ⟨n, result, next, bound, fresh⟩ | ⟨-, result⟩
    · have positive : n ≠ 0 := by
        rintro rfl
        simp at next
      have added : ((t.append r).2).ids = t.ids ++ [n] := by
        simp [result, Table.ids, Table.derive, Record.idOf_withId]
      refine ⟨by rw [result]; rfl, Or.inr ⟨n, ⟨positive, bound, fun _ member => ?_⟩, added⟩⟩
      exact UInt64.lt_irrefl n (fresh n member)
    · rw [result]
      exact refl t
  · rcases spec.numbered unnumbered with ⟨result, bound, free⟩ | ⟨-, result⟩ | ⟨-, -, result⟩
    · have added : ((t.append r).2).ids = t.ids ++ [idOf r] := by
        simp [result, Table.ids, Table.derive]
      exact ⟨by rw [result]; rfl, Or.inr ⟨idOf r, ⟨unnumbered, bound, free⟩, added⟩⟩
    · rw [result]
      exact refl t
    · rw [result]
      exact refl t

theorem of_replacing {old r : α} (replacing : t.Replacing old r after) : t.LeadsTo after := by
  have ids := replacing.ids_eq
  obtain ⟨before, behind, -, -, -, rfl⟩ := replacing
  exact ⟨rfl, Or.inl (ids ▸ List.Sublist.refl _)⟩

theorem of_update (t : Table α) (r : α) : t.LeadsTo (t.update r).2 := by
  rcases t.update_cases r with ⟨-, -, result⟩ | ⟨old, after, -, replacing, result⟩
  · rw [result]
    exact refl t
  · rw [result]
    exact of_replacing replacing

theorem of_retain (p : Predicate) (t : Table α) : t.LeadsTo (p.retain t).2 := by
  rw [Predicate.retain]
  cases result : p.run t with
  | error fault => exact refl t
  | ok kept =>
    have leads := of_run result
    exact ⟨rfl, leads.ids⟩

theorem of_retainMatching (q : Query) (t : Table α) : t.LeadsTo (t.retain q).2 := by
  rw [Table.retain]
  cases q.compile with
  | error fault => exact refl t
  | ok p => exact of_retain p t

theorem of_select (q : Query) (t : Table α) : t.LeadsTo (t.select q true).2 := by
  rw [Table.select]
  cases result : q.run t with
  | error fault => exact refl t
  | ok kept =>
    obtain ⟨-, -, rfl⟩ := Query.run_eq_ok_iff.1 result
    exact of_sublist List.filter_sublist

end LeadsTo

theorem leadsTo_edit (t : Table α) (e : Edit α) : t.LeadsTo (t.edit e) := by
  cases e with
  | append r => exact LeadsTo.of_append t r
  | update r => exact LeadsTo.of_update t r
  | delete n => exact LeadsTo.of_sublist List.eraseP_sublist
  | deleteWhere condition => exact LeadsTo.of_sublist List.eraseP_sublist
  | retain p => exact LeadsTo.of_retain p t
  | retainMatching q => exact LeadsTo.of_retainMatching q t
  | selectInPlace q => exact LeadsTo.of_select q t

def AllNumbered (t : Table α) : Prop := ∀ n ∈ t.ids, 1 ≤ n ∧ n ≤ maxRecordId

/-- No two records share a number that they have been given. -/
def DistinctIds (t : Table α) : Prop := (t.ids.filter (· ≠ 0)).Nodup

instance (t : Table α) : Decidable t.DistinctIds := inferInstanceAs (Decidable (List.Nodup _))

theorem AllNumbered.of_leadsTo {t after : Table α} (all : t.AllNumbered)
    (leads : t.LeadsTo after) : after.AllNumbered := by
  rcases leads.ids with fewer | ⟨n, admitted, added⟩
  · exact fun m member => all m (fewer.subset member)
  · intro m member
    rw [added, List.mem_append, List.mem_singleton] at member
    rcases member with earlier | rfl
    · exact all m earlier
    · refine ⟨?_, admitted.bound⟩
      have positive := admitted.given
      rw [UInt64.le_iff_toNat_le, UInt64.toNat_one]
      rw [Ne, ← UInt64.toNat_inj, UInt64.toNat_zero] at positive
      omega

/-- A table that refuses a number in use, and in which no two records share a number. -/
structure Guarded (t : Table α) : Prop where
  strict : t.policy = .strict
  distinct : t.DistinctIds

theorem guarded_empty : (empty .strict : Table α).Guarded := ⟨rfl, by simp [DistinctIds, ids, empty]⟩

theorem Guarded.of_leadsTo {t after : Table α} (guarded : t.Guarded) (leads : t.LeadsTo after) :
    after.Guarded := by
  refine ⟨leads.policy.trans guarded.strict, ?_⟩
  rcases leads.ids with fewer | ⟨n, admitted, added⟩
  · exact guarded.distinct.sublist (fewer.filter _)
  · have fresh : n ∉ t.ids.filter (· ≠ 0) := fun member =>
      admitted.free guarded.strict (List.mem_filter.1 member).1
    rw [DistinctIds, added, List.filter_append, List.filter_singleton, decide_eq_true admitted.given]
    exact List.nodup_append'.2 ⟨guarded.distinct, by simp, by simpa using fresh⟩

theorem AllNumbered.nodup {t : Table α} (all : t.AllNumbered) (distinct : t.DistinctIds) :
    t.ids.Nodup := by
  have whole : t.ids.filter (· ≠ 0) = t.ids := by
    refine List.filter_eq_self.2 fun n member => decide_eq_true ?_
    rintro rfl
    exact absurd (all 0 member).1 (by decide)
  rwa [DistinctIds, whole] at distinct

def editAll (t : Table α) (edits : List (Edit α)) : Table α := edits.foldl edit t

theorem editAll_induction {motive : Table α → Prop} {t : Table α} (start : motive t)
    (step : ∀ t e, motive t → motive (edit t e)) (edits : List (Edit α)) :
    motive (t.editAll edits) := by
  induction edits generalizing t with
  | nil => exact start
  | cons e edits ih => exact ih (step t e start)

theorem AllNumbered.editAll {t : Table α} (all : t.AllNumbered) (edits : List (Edit α)) :
    (t.editAll edits).AllNumbered :=
  editAll_induction all (fun after e inRange => inRange.of_leadsTo (leadsTo_edit after e)) edits

theorem Guarded.editAll {t : Table α} (guarded : t.Guarded) (edits : List (Edit α)) :
    (t.editAll edits).Guarded :=
  editAll_induction guarded (fun after e kept => kept.of_leadsTo (leadsTo_edit after e)) edits

/-- Whatever is done to a table that was empty at first, its records are numbered within the bound,
under the strict policy no two alike, and a record that is appended next gets a number past all
others or keeps its own, unless the table stays as it is. -/
theorem numbering_editAll_empty (policy : IdPolicy) (edits : List (Edit α)) :
    (policy = .strict → ((empty policy : Table α).editAll edits).ids.Nodup) ∧
      ((empty policy : Table α).editAll edits).AllNumbered ∧
      ∀ r : α, ((empty policy : Table α).editAll edits).Appends r := by
  have all : (empty policy : Table α).AllNumbered := by simp [AllNumbered, ids, empty]
  refine ⟨?_, all.editAll edits, fun r => appends _ r⟩
  rintro rfl
  exact (all.editAll edits).nodup (guarded_empty.editAll edits).distinct

end Table

end ImageCatalog
