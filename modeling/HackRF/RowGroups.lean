import Mathlib.Tactic
import Mathlib.Data.List.Sort
import Mathlib.Data.List.Dedup

/-!
# Grouping the rows of a table

Rows with equal keys form a group, in which they keep their order; the groups
come in the order of their keys.  Keeping whole groups leaves each group that
is kept as it was, and an edit which respects the keys is an edit of every
group.  The mode of a list are its most frequent values.

This is what the `pandas` documentation says of `DataFrame.groupby` with its
default `sort=True`, of `filter` on the groups and of `Series.mode`.
-/

namespace RowGroups

variable {Row Key : Type*} [LinearOrder Key]

/-- A group, with its rows in the order of the table. -/
def group (key : Row → Key) (rows : List Row) (k : Key) : List Row :=
  rows.filter fun row => key row = k

/-- The keys that occur, sorted. -/
def keys (key : Row → Key) (rows : List Row) : List Key :=
  (rows.map key).dedup.insertionSort (· ≤ ·)

def groupBy (key : Row → Key) (rows : List Row) : List (Key × List Row) :=
  (keys key rows).map fun k => (k, group key rows k)

/-- The rows of the groups which pass the test, in the order of the table. -/
def filterGroups (key : Row → Key) (keep : List Row → Bool)
    (rows : List Row) : List Row :=
  rows.filter fun row => keep (group key rows (key row))

/-- All the values which no other one exceeds in frequency. -/
def mode (values : List ℕ) : List ℕ :=
  values.dedup.filter fun value =>
    ∀ other ∈ values, values.count other ≤ values.count value

variable {key : Row → Key} {rows : List Row}

theorem mem_keys {k : Key} :
    k ∈ keys key rows ↔ ∃ row ∈ rows, key row = k := by
  rw [keys, List.mem_insertionSort, List.mem_dedup, List.mem_map]

theorem mem_groupBy {k : Key} {members : List Row} :
    (k, members) ∈ groupBy key rows ↔
      k ∈ keys key rows ∧ members = group key rows k := by
  rw [groupBy, List.mem_map]
  constructor
  · rintro ⟨k', hk', hsame⟩
    obtain ⟨rfl, rfl⟩ := Prod.mk.inj hsame
    exact ⟨hk', rfl⟩
  · rintro ⟨hk, rfl⟩
    exact ⟨k, hk, rfl⟩

theorem groupBy_ne_nil (hrows : rows ≠ []) : groupBy key rows ≠ [] := by
  obtain ⟨row, rest, rfl⟩ := List.exists_cons_of_ne_nil hrows
  exact List.ne_nil_of_mem (mem_groupBy.mpr
    ⟨mem_keys.mpr ⟨row, List.mem_cons_self, rfl⟩, rfl⟩)

theorem group_filterGroups (keep : List Row → Bool) (k : Key) :
    group key (filterGroups key keep rows) k =
      if keep (group key rows k) then group key rows k else [] := by
  have hkeep : group key (filterGroups key keep rows) k =
      (group key rows k).filter fun _ => keep (group key rows k) := by
    unfold group filterGroups
    rw [List.filter_comm]
    apply List.filter_congr
    intro row hrow
    rw [of_decide_eq_true (List.mem_filter.mp hrow).2]
    rfl
  rw [hkeep]
  cases keep (group key rows k) with
  | true => simp
  | false => simp

theorem mem_groupBy_filterGroups {keep : List Row → Bool} {k : Key}
    {members : List Row} :
    (k, members) ∈ groupBy key (filterGroups key keep rows) ↔
      (k, members) ∈ groupBy key rows ∧ keep members = true := by
  rw [mem_groupBy, mem_groupBy, mem_keys, mem_keys, group_filterGroups]
  constructor
  · rintro ⟨⟨row, hrow, rfl⟩, hmembers⟩
    obtain ⟨hmem, hkeep⟩ := List.mem_filter.mp hrow
    rw [if_pos hkeep] at hmembers
    subst hmembers
    exact ⟨⟨⟨row, hmem, rfl⟩, rfl⟩, hkeep⟩
  · rintro ⟨⟨⟨row, hrow, rfl⟩, rfl⟩, hkeep⟩
    rw [if_pos hkeep]
    exact ⟨⟨row, List.mem_filter.mpr ⟨hrow, hkeep⟩, rfl⟩, rfl⟩

/-! ## The groups in the order of their keys -/

theorem sortedLT_keys (key : Row → Key) (rows : List Row) :
    (keys key rows).SortedLT := by
  have hnodup : (keys key rows).Nodup :=
    (List.perm_insertionSort _ _).nodup_iff.mpr (List.nodup_dedup _)
  exact List.sortedLE_insertionSort.sortedLT_of_nodup hnodup

theorem keys_eq_of_sorted {ks : List Key} (hsorted : ks.SortedLT)
    (hks : ∀ k, k ∈ ks ↔ ∃ row ∈ rows, key row = k) :
    keys key rows = ks := by
  apply (sortedLT_keys key rows).eq_of_mem_iff hsorted
  intro k
  rw [mem_keys, hks]

theorem keys_filterGroups (keep : List Row → Bool) :
    keys key (filterGroups key keep rows) =
      (keys key rows).filter fun k => keep (group key rows k) := by
  apply keys_eq_of_sorted
  · exact ((sortedLT_keys key rows).pairwise.filter _).sortedLT
  · intro k
    rw [List.mem_filter, mem_keys]
    constructor
    · rintro ⟨⟨row, hrow, rfl⟩, hkeep⟩
      exact ⟨row, List.mem_filter.mpr ⟨hrow, hkeep⟩, rfl⟩
    · rintro ⟨row, hrow, rfl⟩
      obtain ⟨hmem, hkeep⟩ := List.mem_filter.mp hrow
      exact ⟨⟨row, hmem, rfl⟩, hkeep⟩

theorem groupBy_filterGroups (keep : List Row → Bool) :
    groupBy key (filterGroups key keep rows) =
      (groupBy key rows).filter fun g => keep g.2 := by
  unfold groupBy
  rw [keys_filterGroups, List.filter_map]
  apply List.map_congr_left
  intro k hk
  rw [group_filterGroups, if_pos (List.mem_filter.mp hk).2]

/-! ## Edits which respect the keys -/

section Edit

variable {Row' : Type*} {key' : Row' → Key} {edit : Row → Row'}

theorem group_map (hkey : ∀ row, key' (edit row) = key row)
    (rows : List Row) (k : Key) :
    group key' (rows.map edit) k = (group key rows k).map edit := by
  unfold group
  rw [List.filter_map]
  simp only [Function.comp_def, hkey]

theorem groupBy_map (hkey : ∀ row, key' (edit row) = key row)
    (rows : List Row) :
    groupBy key' (rows.map edit) =
      (groupBy key rows).map fun g => (g.1, g.2.map edit) := by
  have hkeys : keys key' (rows.map edit) = keys key rows := by
    unfold keys
    rw [List.map_map]
    simp only [Function.comp_def, hkey]
  unfold groupBy
  rw [hkeys, List.map_map]
  simp only [Function.comp_def, group_map hkey]

theorem filterGroups_map (hkey : ∀ row, key' (edit row) = key row)
    {keep : List Row → Bool} {keep' : List Row' → Bool}
    (hkeep : ∀ rows, keep' (rows.map edit) = keep rows) (rows : List Row) :
    filterGroups key' keep' (rows.map edit) =
      (filterGroups key keep rows).map edit := by
  unfold filterGroups
  rw [List.filter_map]
  simp only [Function.comp_def, hkey, group_map hkey, hkeep]

end Edit

/-! ## The mode -/

theorem mem_of_mem_mode {values : List ℕ} {value : ℕ}
    (hmode : value ∈ mode values) : value ∈ values :=
  List.mem_dedup.mp (List.mem_filter.mp hmode).1

theorem mode_of_forall_eq {values : List ℕ} {value : ℕ}
    (hvalues : values ≠ []) (hall : ∀ other ∈ values, other = value) :
    mode values = [value] := by
  obtain ⟨n, rfl⟩ : ∃ n, values = List.replicate (n + 1) value := by
    refine ⟨values.length - 1, ?_⟩
    have hlength := List.length_pos_iff.mpr hvalues
    rw [Nat.sub_add_cancel hlength]
    exact List.eq_replicate_of_mem hall
  have hdedup : (List.replicate (n + 1) value).dedup = [value] :=
    List.replicate_dedup n.succ_ne_zero
  rw [mode, hdedup]
  simp

theorem mem_mode {values : List ℕ} {value : ℕ} :
    value ∈ mode values ↔ value ∈ values ∧
      ∀ other ∈ values, values.count other ≤ values.count value := by
  rw [mode, List.mem_filter, List.mem_dedup, decide_eq_true_iff]

/-- The mode is one value if all others are less frequent. -/
theorem mode_eq_singleton_iff {values : List ℕ} {value : ℕ} :
    mode values = [value] ↔ value ∈ values ∧
      ∀ other ∈ values, other ≠ value →
        values.count other < values.count value := by
  constructor
  · intro hmode
    obtain ⟨hmem, hmost⟩ := mem_mode.mp (hmode ▸ List.mem_cons_self)
    refine ⟨hmem, fun other hother hne => ?_⟩
    by_contra hcount
    have htie : other ∈ mode values := mem_mode.mpr
      ⟨hother, fun third hthird => (hmost third hthird).trans (not_lt.mp hcount)⟩
    rw [hmode] at htie
    exact hne (List.mem_singleton.mp htie)
  · rintro ⟨hmem, hless⟩
    have hnodup : (mode values).Nodup := (List.nodup_dedup values).filter _
    rw [← List.perm_singleton, List.perm_ext_iff_of_nodup hnodup
      (List.nodup_singleton value)]
    intro other
    rw [mem_mode, List.mem_singleton]
    constructor
    · rintro ⟨hother, hmost⟩
      by_contra hne
      exact absurd (hmost value hmem) (not_le.mpr (hless other hother hne))
    · rintro rfl
      refine ⟨hmem, fun third hthird => ?_⟩
      by_cases hsame : third = other
      · rw [hsame]
      · exact (hless third hthird hsame).le

end RowGroups
