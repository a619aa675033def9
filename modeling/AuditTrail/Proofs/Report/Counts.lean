import AuditTrail.Report.Statistics
/-! # Tables of counts

A table is sorted by key, so no key stands in it twice, and what it counts for a key is how often the
key occurs (`Counts.count_of`). All its counts together are the number of keys that were counted. -/

namespace AuditTrail.Counts
set_option autoImplicit false

/-- The keys of a table rise. -/
def IsSorted (counts : Counts) : Prop := (counts.map Prod.fst).Pairwise (· < ·)

theorem count_eq_zero {counts : Counts} {key : String} (h : key ∉ counts.map Prod.fst) :
    count counts key = 0 := by
  have hnone : counts.lookup key = none := by
    rw [List.lookup_eq_none_iff]
    intro row hrow
    rw [bne_iff_ne]
    intro heq
    exact h (heq ▸ List.mem_map_of_mem hrow)
  rw [count, hnone]
  rfl

theorem count_cons (k : String) (n : Nat) (rest : Counts) (key : String) :
    count ((k, n) :: rest) key = if key = k then n else count rest key := by
  by_cases h : key = k
  · simp [count, h]
  · have hbeq : (key == k) = false := beq_eq_false_iff_ne.mpr h
    simp [count, List.lookup_cons, hbeq, h]

theorem mem_keys_increment {counts : Counts} {key k : String} :
    k ∈ (increment key counts).map Prod.fst ↔ k = key ∨ k ∈ counts.map Prod.fst := by
  induction counts with
  | nil => simp [increment]
  | cons row rest ih =>
    obtain ⟨k', n⟩ := row
    rw [increment]
    split
    · simp
    · split
      · next heq => simp [heq]
      · rw [List.map_cons, List.mem_cons, ih]
        simp [or_left_comm]

theorem IsSorted.increment {counts : Counts} (h : counts.IsSorted) (key : String) :
    (increment key counts).IsSorted := by
  induction counts with
  | nil => simp [Counts.increment, IsSorted]
  | cons row rest ih =>
    obtain ⟨k, n⟩ := row
    obtain ⟨hfirst, hrest⟩ := List.pairwise_cons.mp h
    rw [Counts.increment]
    split
    case isTrue hlt =>
      refine List.pairwise_cons.mpr ⟨?_, h⟩
      intro other hother
      rcases List.mem_cons.mp hother with rfl | hother
      · exact hlt
      · exact String.lt_trans hlt (hfirst other hother)
    case isFalse hnot =>
      split
      case isTrue heq => exact h
      case isFalse hne =>
        refine List.pairwise_cons.mpr ⟨?_, ih hrest⟩
        intro other hother
        rcases mem_keys_increment.mp hother with rfl | hother
        · exact String.not_le.mp fun hle => hne (String.le_antisymm hle (String.not_lt.mp hnot))
        · exact hfirst other hother

theorem IsSorted.count_increment {counts : Counts} (h : counts.IsSorted) (key k : String) :
    count (Counts.increment key counts) k = count counts k + if k = key then 1 else 0 := by
  induction counts with
  | nil =>
    have hempty : count [] k = 0 := rfl
    rw [Counts.increment, count_cons, hempty, Nat.zero_add]
  | cons row rest ih =>
    obtain ⟨k', n⟩ := row
    obtain ⟨hfirst, hrest⟩ := List.pairwise_cons.mp h
    rw [Counts.increment]
    split
    case isTrue hlt =>
      -- A key below the first one is in no row yet.
      rw [count_cons key]
      by_cases hk : k = key
      · subst hk
        have hnew : k ∉ ((k', n) :: rest).map Prod.fst := by
          intro hmem
          rcases List.mem_cons.mp hmem with heq | hmem
          · exact String.lt_irrefl k (heq ▸ hlt)
          · exact String.lt_irrefl k (String.lt_trans hlt (hfirst k hmem))
        simp [count_eq_zero hnew]
      · simp [hk]
    case isFalse =>
      split
      case isTrue heq =>
        subst heq
        by_cases hk : k = key <;> simp [count_cons, hk]
      case isFalse hne =>
        rw [count_cons, count_cons, ih hrest]
        by_cases hk : k = k'
        · subst hk
          simp [Ne.symm hne]
        · simp [hk]

theorem isSorted_of (keys : List String) : (Counts.of keys).IsSorted := by
  induction keys with
  | nil => exact List.Pairwise.nil
  | cons key rest ih => exact ih.increment key

/-- A table counts each key as often as it occurs. -/
theorem count_of (keys : List String) (key : String) :
    count (Counts.of keys) key = keys.count key := by
  induction keys with
  | nil => rfl
  | cons first rest ih =>
    have hcount := (isSorted_of rest).count_increment first key
    rw [ih] at hcount
    rw [List.count_cons, of, List.foldr_cons, ← of]
    simpa only [beq_iff_eq, @eq_comm _ first] using hcount

theorem mem_keys_of {keys : List String} {key : String} :
    key ∈ (Counts.of keys).map Prod.fst ↔ key ∈ keys := by
  induction keys with
  | nil => exact iff_of_false List.not_mem_nil List.not_mem_nil
  | cons first rest ih => rw [of, List.foldr_cons, ← of, mem_keys_increment, ih, List.mem_cons]

theorem lookup_of (keys : List String) (key : String) :
    (Counts.of keys).lookup key = if key ∈ keys then some (keys.count key) else none := by
  split
  case isTrue hmem =>
    obtain ⟨n, hn⟩ : ∃ n, (Counts.of keys).lookup key = some n := by
      obtain ⟨row, hrow, hkey⟩ := List.mem_map.mp (mem_keys_of.mpr hmem)
      cases hnone : (Counts.of keys).lookup key with
      | some n => exact ⟨n, rfl⟩
      | none =>
        have hother := List.lookup_eq_none_iff.mp hnone row hrow
        exact absurd hkey.symm (bne_iff_ne.mp hother)
    have hcount := count_of keys key
    rw [count, hn, Option.getD_some] at hcount
    rw [hn, hcount]
  case isFalse hmem =>
    rw [List.lookup_eq_none_iff]
    intro row hrow
    rw [bne_iff_ne]
    rintro rfl
    exact hmem (mem_keys_of.mp (List.mem_map_of_mem hrow))

theorem increment_comm (first second : String) (counts : Counts) :
    increment first (increment second counts) = increment second (increment first counts) := by
  induction counts with
  | nil => grind [increment]
  | cons row rest ih => grind [increment]

/-- A table does not tell in what order the keys have been counted. -/
theorem of_perm {keys reordered : List String} (reorder : keys.Perm reordered) :
    Counts.of keys = Counts.of reordered :=
  reorder.foldr_eq' (fun first _ second _ counts => increment_comm second first counts) []

/-- A table holds the counts of two others together, key by key. -/
def IsSumOf (whole first second : Counts) : Prop :=
  ∀ key, whole.lookup key = (first.lookup key).merge (· + ·) (second.lookup key)

theorem isSumOf_append (first second : List String) :
    IsSumOf (Counts.of (first ++ second)) (Counts.of first) (Counts.of second) := by
  intro key
  rw [lookup_of, lookup_of, lookup_of]
  by_cases hfirst : key ∈ first <;> by_cases hsecond : key ∈ second <;>
    simp [hfirst, hsecond, List.count_append, List.count_eq_zero_of_not_mem]

theorem total_increment (key : String) (counts : Counts) :
    total (increment key counts) = total counts + 1 := by
  induction counts with
  | nil => rfl
  | cons row rest ih =>
    obtain ⟨k, n⟩ := row
    simp only [total] at ih ⊢
    rw [increment]
    split
    · simp only [List.map_cons, List.sum_cons]
      omega
    · split
      · simp only [List.map_cons, List.sum_cons]
        omega
      · simp only [List.map_cons, List.sum_cons, ih]
        omega

theorem total_of (keys : List String) : total (Counts.of keys) = keys.length := by
  induction keys with
  | nil => rfl
  | cons key rest ih =>
    rw [of, List.foldr_cons, ← of, total_increment, ih, List.length_cons]

end AuditTrail.Counts
