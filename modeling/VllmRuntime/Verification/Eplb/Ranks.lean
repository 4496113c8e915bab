import VllmRuntime.Model.EplbTransfer

/-! # The ranks of an expert

`get_ep_ranks_with_experts_batch` gives for each expert that is asked for the ranks of its positions. These do
not depend on which other experts are asked for, so that the two sides of a transfer see the same ranks. -/

namespace VllmRuntime.Eplb

variable {expert : ℤ} {rows : List (ℤ × ℕ)}

open List

/-! ## `np.unique` -/

lemma pairwise_unique (values : List ℤ) : (unique values).Pairwise (· < ·) := by
  have hle : (unique values).Pairwise (· ≤ ·) := pairwise_insertionSort _ _
  have hnodup : (unique values).Nodup := (perm_insertionSort _ _).nodup_iff.2 (nodup_dedup _)
  exact (hle.and hnodup).imp fun h => lt_of_le_of_ne h.1 h.2

lemma mem_unique {values : List ℤ} {value : ℤ} : value ∈ unique values ↔ value ∈ values := by
  rw [unique, mem_insertionSort, mem_dedup]

lemma lookup_eq_some_of_mem (h : expert ∈ rows.map Prod.fst) :
    ∃ row, rows.lookup expert = some row ∧ (expert, row) ∈ rows := by
  obtain ⟨row, hrow⟩ := Option.isSome_iff_exists.1 (lookup_isSome.2 h)
  exact ⟨row, hrow, mem_of_lookup hrow⟩

/-- The experts of some rows, each once. -/
lemma map_fst_firstRows (rows : List (ℤ × ℕ)) : (firstRows rows).map Prod.fst = unique (rows.map Prod.fst) := by
  have hall : ∀ expert ∈ unique (rows.map Prod.fst), expert ∈ rows.map Prod.fst := fun _ => mem_unique.1
  rw [firstRows]
  generalize unique (rows.map Prod.fst) = experts at hall
  induction experts with
  | nil => rfl
  | cons expert experts ih =>
    obtain ⟨row, hrow, -⟩ := lookup_eq_some_of_mem (hall expert mem_cons_self)
    rw [filterMap_cons, hrow, Option.map_some, map_cons, ih fun other hmem =>
      hall other (mem_cons_of_mem _ hmem)]

lemma mem_of_mem_firstRows {entry : ℤ × ℕ} (h : entry ∈ firstRows rows) : entry ∈ rows := by
  obtain ⟨expert, -, hentry⟩ := mem_filterMap.1 h
  obtain ⟨row, hrow, rfl⟩ := Option.map_eq_some_iff.1 hentry
  exact mem_of_lookup hrow

lemma pairwise_firstRows (rows : List (ℤ × ℕ)) : (firstRows rows).Pairwise (·.1 < ·.1) := by
  have hkeys := pairwise_unique (rows.map Prod.fst)
  rw [← map_fst_firstRows, pairwise_map] at hkeys
  exact hkeys

/-- The rows are sorted already. -/
lemma sortByExpert_firstRows (rows : List (ℤ × ℕ)) : sortByExpert (firstRows rows) = firstRows rows :=
  List.Pairwise.insertionSort_eq ((pairwise_firstRows rows).imp le_of_lt)

/-! ## The runs of a sorted list -/

lemma head?_runsByExpert (l : List (ℤ × ℕ)) :
    (runsByExpert l).head?.map Prod.fst = l.head?.map Prod.fst := by
  cases l with
  | nil => rfl
  | cons entry rest =>
    obtain ⟨expert, rank⟩ := entry
    rw [runsByExpert]
    split
    · rfl
    · split
      · rfl
      · rfl

/-- The run of an expert has all its ranks. -/
lemma lookup_runsByExpert {l : List (ℤ × ℕ)} (hsorted : l.Pairwise (·.1 ≤ ·.1)) (expert : ℤ) :
    (runsByExpert l).lookup expert =
      if (l.filter (·.1 = expert)).map Prod.snd = [] then none else some ((l.filter (·.1 = expert)).map Prod.snd) := by
  induction l with
  | nil => rfl
  | cons entry rest ih =>
    obtain ⟨first, rank⟩ := entry
    obtain ⟨hfirst, hrest⟩ := pairwise_cons.1 hsorted
    have hih := ih hrest
    have hhead := head?_runsByExpert rest
    rw [runsByExpert]
    by_cases heq : expert = first
    · subst heq
      have hfilter : ((expert, rank) :: rest).filter (·.1 = expert) =
          (expert, rank) :: rest.filter (·.1 = expert) := by simp
      rw [hfilter, map_cons, if_neg (cons_ne_nil _ _)]
      split
      · rename_i hruns
        rw [hruns] at hih
        have hnone : (rest.filter (·.1 = expert)).map Prod.snd = [] := by
          by_contra hne
          rw [if_neg hne] at hih
          cases hih
        simp [hnone]
      · rename_i next ranks runs hruns
        rw [hruns] at hih hhead
        split
        · rename_i hnext
          subst hnext
          rw [lookup_cons_self] at hih
          rw [lookup_cons_self]
          split at hih
          · cases hih
          · exact congrArg (fun ranks => some (rank :: ranks)) (Option.some.inj hih)
        · rename_i hnext
          -- the experts after the run are larger
          have hnone : (rest.filter (·.1 = expert)).map Prod.snd = [] := by
            cases rest with
            | nil => rfl
            | cons second rest =>
              have hsecond : next = second.1 := by simpa using hhead
              have hlt : expert < next :=
                lt_of_le_of_ne (hsecond ▸ hfirst second mem_cons_self) (Ne.symm hnext)
              rw [map_eq_nil_iff, filter_eq_nil_iff]
              intro other hmem
              have hle : next ≤ other.1 := by
                rw [hsecond]
                rcases mem_cons.1 hmem with rfl | hmem
                · exact le_rfl
                · exact (pairwise_cons.1 hrest).1 other hmem
              simpa using (hlt.trans_le hle).ne'
          rw [lookup_cons_self, hnone]
    · have hfilter : ((first, rank) :: rest).filter (·.1 = expert) = rest.filter (·.1 = expert) := by
        simp [Ne.symm heq]
      have hne : (expert == first) = false := by simpa using heq
      rw [hfilter]
      split
      · rename_i hruns
        rw [hruns] at hih
        rw [← hih]
        simp [lookup_cons, hne]
      · rename_i next ranks runs hruns
        rw [hruns] at hih
        split
        · rename_i hnext
          subst hnext
          rw [← hih]
          simp [lookup_cons, hne]
        · rw [← hih]
          simp only [lookup_cons, hne]

/-! ## The maps -/

/-- The ranks that have an expert, in the order of first appearance. -/
def ranksOf (numLocalExperts : ℕ) (indices : List ℤ) (expert : ℤ) : List ℕ :=
  ((indices.zipIdx.filter (·.1 = expert)).map fun entry => entry.2 / numLocalExperts).eraseDups

lemma mem_ranksOf {numLocalExperts : ℕ} {indices : List ℤ} {rank : ℕ} :
    rank ∈ ranksOf numLocalExperts indices expert ↔
      ∃ position, indices[position]? = some expert ∧ position / numLocalExperts = rank := by
  simp only [ranksOf, mem_eraseDups, mem_map, mem_filter, decide_eq_true_eq, Prod.exists,
    mk_mem_zipIdx_iff_getElem?]
  constructor
  · rintro ⟨_, position, ⟨hget, rfl⟩, hrank⟩
    exact ⟨position, hget, hrank⟩
  · rintro ⟨position, hget, hrank⟩
    exact ⟨expert, position, ⟨hget, rfl⟩, hrank⟩

lemma nodup_eraseDups (l : List ℕ) : l.eraseDups.Nodup := by
  induction hlength : l.length using Nat.strong_induction_on generalizing l with
  | _ n ih =>
    cases l with
    | nil => exact nodup_nil
    | cons a l =>
      rw [eraseDups_cons]
      refine nodup_cons.2 ⟨?_, ih _ ?_ _ rfl⟩
      · simp
      · rw [← hlength, length_cons]
        exact Nat.lt_succ_of_le (length_filter_le _ _)

/-- Sorting by expert and position leaves the positions of an expert in order. -/
lemma filter_sorted (uniqueExperts indices : List ℤ) (hmem : expert ∈ uniqueExperts) :
    ((indices.zipIdx.filter (·.1 ∈ uniqueExperts)).insertionSort fun a b =>
        a.1 < b.1 ∨ a.1 = b.1 ∧ a.2 ≤ b.2).filter (·.1 = expert) = indices.zipIdx.filter (·.1 = expert) := by
  have htotal : Std.Total fun a b : ℤ × ℕ => a.1 < b.1 ∨ a.1 = b.1 ∧ a.2 ≤ b.2 := ⟨by intro a b; omega⟩
  have htrans : IsTrans (ℤ × ℕ) fun a b => a.1 < b.1 ∨ a.1 = b.1 ∧ a.2 ≤ b.2 := ⟨by intro a b c; omega⟩
  have hpositions : indices.zipIdx.Pairwise (·.2 < ·.2) := by
    have hrange : (indices.zipIdx.map Prod.snd).Pairwise (· < ·) := by
      rw [zipIdx_map_snd]
      exact pairwise_lt_range'
    exact pairwise_map.1 hrange
  have hrelevant : (indices.zipIdx.filter (·.1 ∈ uniqueExperts)).filter (·.1 = expert) =
      indices.zipIdx.filter (·.1 = expert) := by
    rw [filter_filter]
    refine filter_congr ?_
    intro entry _
    by_cases heq : entry.1 = expert
    · simp [heq, hmem]
    · simp [heq]
  have hperm := (perm_insertionSort (fun a b : ℤ × ℕ => a.1 < b.1 ∨ a.1 = b.1 ∧ a.2 ≤ b.2)
    (indices.zipIdx.filter (·.1 ∈ uniqueExperts))).filter (·.1 = expert)
  rw [hrelevant] at hperm
  refine (List.Perm.eq_of_pairwise : (∀ a b : ℤ × ℕ, _ → _ → (a.1 < b.1 ∨ a.1 = b.1 ∧ a.2 ≤ b.2) → _ → a = b) → _)
    ?_ ?_ ?_ hperm
  · intro a b _ _ hab hba
    ext
    · omega
    · omega
  · exact (pairwise_insertionSort _ _).filter _
  · refine ((hpositions.filter _).imp_of_mem ?_)
    intro a b ha hb hlt
    have ha := of_decide_eq_true (mem_filter.1 ha).2
    have hb := of_decide_eq_true (mem_filter.1 hb).2
    exact .inr ⟨ha.trans hb.symm, hlt.le⟩

lemma lookup_ranksByExpert (numLocalExperts : ℕ) (indices : List ℤ) {uniqueExperts : List ℤ}
    (hmem : expert ∈ uniqueExperts) :
    ((ranksByExpert uniqueExperts numLocalExperts indices).lookup expert).getD [] =
      ranksOf numLocalExperts indices expert := by
  have hsorted : (((indices.zipIdx.filter (·.1 ∈ uniqueExperts)).insertionSort fun a b =>
      a.1 < b.1 ∨ a.1 = b.1 ∧ a.2 ≤ b.2).map fun entry => (entry.1, entry.2 / numLocalExperts)).Pairwise
        (·.1 ≤ ·.1) := by
    have htotal : Std.Total fun a b : ℤ × ℕ => a.1 < b.1 ∨ a.1 = b.1 ∧ a.2 ≤ b.2 := ⟨by intro a b; omega⟩
    have htrans : IsTrans (ℤ × ℕ) fun a b => a.1 < b.1 ∨ a.1 = b.1 ∧ a.2 ≤ b.2 := ⟨by intro a b c; omega⟩
    exact pairwise_map.2 ((pairwise_insertionSort _ _).imp fun h => by omega)
  have hfilter : ((((indices.zipIdx.filter (·.1 ∈ uniqueExperts)).insertionSort fun a b =>
      a.1 < b.1 ∨ a.1 = b.1 ∧ a.2 ≤ b.2).map fun entry => (entry.1, entry.2 / numLocalExperts)).filter
        (·.1 = expert)).map Prod.snd =
      (indices.zipIdx.filter (·.1 = expert)).map fun entry => entry.2 / numLocalExperts := by
    rw [filter_map, map_map, ← filter_sorted uniqueExperts indices hmem]
    rfl
  have hlookup := lookup_runsByExpert hsorted expert
  rw [hfilter] at hlookup
  have hmap := lookup_map_snd (runsByExpert (((indices.zipIdx.filter (·.1 ∈ uniqueExperts)).insertionSort fun a b =>
      a.1 < b.1 ∨ a.1 = b.1 ∧ a.2 ≤ b.2).map fun entry => (entry.1, entry.2 / numLocalExperts)))
    (fun _ ranks => ranks.eraseDups) expert
  rw [hlookup] at hmap
  refine (congrArg (·.getD []) hmap).trans ?_
  rw [ranksOf]
  split
  · rename_i hnil
    rw [hnil]
    rfl
  · rfl

lemma lookup_addOne (ranks : OrderedDict ℤ (List ℕ)) (first expert : ℤ) :
    lookup expert (if first ∈ ranks.map Prod.fst then ranks else ranks ++ [(first, [])]) =
      if expert = first then some ((ranks.lookup expert).getD []) else ranks.lookup expert := by
  by_cases heq : expert = first
  · subst heq
    rw [if_pos rfl]
    split
    · rename_i hin
      obtain ⟨value, hvalue⟩ := Option.isSome_iff_exists.1 (lookup_isSome.2 hin)
      rw [hvalue]
      rfl
    · rename_i hnot
      rw [lookup_append, lookup_eq_none.2 hnot]
      simp
  · rw [if_neg heq]
    split
    · rfl
    · have hnone : ([(first, [])] : OrderedDict ℤ (List ℕ)).lookup expert = none :=
        lookup_eq_none.2 (by simpa using heq)
      rw [lookup_append, hnone, Option.or_none]

lemma lookup_addMissing (uniqueExperts : List ℤ) (ranks : OrderedDict ℤ (List ℕ)) (expert : ℤ) :
    (addMissing uniqueExperts ranks).lookup expert =
      if expert ∈ uniqueExperts then some ((ranks.lookup expert).getD []) else ranks.lookup expert := by
  induction uniqueExperts generalizing ranks with
  | nil => simp [addMissing]
  | cons first uniqueExperts ih =>
    have hstep : addMissing (first :: uniqueExperts) ranks = addMissing uniqueExperts
        (if first ∈ ranks.map Prod.fst then ranks else ranks ++ [(first, [])]) := rfl
    rw [hstep, ih, lookup_addOne]
    by_cases heq : expert = first
    · simp [heq]
    · simp [heq]

/-- The maps at an expert that is asked for. -/
lemma getEpRanksWithExpertsBatch_spec {expertIds : List ℤ} (numLocalExperts : ℕ)
    (oldIndices newIndices : List ℤ) (hmem : expert ∈ expertIds) :
    (getEpRanksWithExpertsBatch expertIds numLocalExperts oldIndices newIndices).1.lookup expert =
        some (ranksOf numLocalExperts oldIndices expert) ∧
      (getEpRanksWithExpertsBatch expertIds numLocalExperts oldIndices newIndices).2.lookup expert =
        some ((ranksOf numLocalExperts newIndices expert).filter
          (· ∉ ranksOf numLocalExperts oldIndices expert)) := by
  have hunique : expert ∈ unique expertIds := mem_unique.2 hmem
  have hold := lookup_ranksByExpert numLocalExperts oldIndices hunique
  have hnew := lookup_ranksByExpert numLocalExperts newIndices hunique
  rw [getEpRanksWithExpertsBatch, if_neg (ne_nil_of_mem hmem)]
  refine ⟨?_, ?_⟩
  · rw [lookup_addMissing, if_pos hunique, hold]
  · have hfiltered := lookup_map_snd (ranksByExpert (unique expertIds) numLocalExperts newIndices)
      (fun expert (ranks : List ℕ) => ranks.filter
        (· ∉ ((ranksByExpert (unique expertIds) numLocalExperts oldIndices).lookup expert).getD [])) expert
    rw [hold] at hfiltered
    rw [lookup_addMissing, if_pos hunique, hfiltered, ← hnew]
    cases (ranksByExpert (unique expertIds) numLocalExperts newIndices).lookup expert with
    | none => rfl
    | some ranks => rfl

end VllmRuntime.Eplb
