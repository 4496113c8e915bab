import VllmRuntime.Model.NixlNotifs

/-! The notifications that the ranks of a producer receive for a request, and that they wait for. -/

namespace VllmRuntime.Nixl

open List Function

variable {ratio producerSize consumerSize rank size : ℕ} {α β : Type}

/-! ## Ranks -/

section Ranks

variable {size ratio : ℕ}

lemma tpRatio_mul (hsize : 0 < size) (hratio : 0 < ratio) : tpRatio (size * ratio) size = .ok (ratio : ℤ) := by
  have hle : size ≤ size * ratio := Nat.le_mul_of_pos_right size hratio
  have hcast : ((size * ratio : ℕ) : ℤ) / (size : ℤ) = ratio := by
    rw [← Int.natCast_div, Nat.mul_div_cancel_left ratio hsize]
  rw [tpRatio, if_pos hle, if_pos (Nat.mul_mod_right size ratio), hcast]

lemma tpRatio_of_mul (hsize : 0 < size) (hratio : 1 < ratio) :
    tpRatio size (size * ratio) = .ok (-(ratio : ℤ)) := by
  have hlt : ¬size * ratio ≤ size := by
    rw [Nat.not_le]
    exact lt_mul_of_one_lt_right hsize hratio
  have hcast : -((size * ratio : ℕ) : ℤ) / (size : ℤ) = -(ratio : ℤ) := by
    rw [Nat.cast_mul, ← mul_neg, Int.mul_ediv_cancel_left _ (by exact_mod_cast hsize.ne')]
  rw [tpRatio, if_neg hlt, if_pos (Nat.mul_mod_right size ratio), hcast]

/-- The numbers of a row that are equal to one number. -/
lemma filter_row (hratio : 0 < ratio) (row rank : ℕ) :
    (range ratio).filter (fun i => row * ratio + i = rank) =
      if row = rank / ratio then [rank % ratio] else [] := by
  have hsplit : rank / ratio * ratio + rank % ratio = rank := Nat.div_add_mod' rank ratio
  have hmod : rank % ratio < ratio := Nat.mod_lt rank hratio
  have hiff (i : ℕ) (hi : i < ratio) :
      row * ratio + i = rank ↔ row = rank / ratio ∧ i = rank % ratio := by
    constructor
    · rintro rfl
      rw [Nat.mul_comm row ratio, Nat.mul_add_div hratio, Nat.div_eq_of_lt hi, Nat.mul_add_mod, Nat.mod_eq_of_lt hi]
      exact ⟨(Nat.add_zero row).symm, rfl⟩
    · rintro ⟨rfl, rfl⟩
      exact hsplit
  have hfilter : (range ratio).filter (fun i => row * ratio + i = rank) =
      (range ratio).filter fun i => row = rank / ratio ∧ i = rank % ratio := by
    refine filter_congr ?_
    intro i hi
    exact decide_eq_decide.2 (hiff i (mem_range.1 hi))
  rw [hfilter]
  by_cases hrow : row = rank / ratio
  · rw [if_pos hrow]
    simp only [hrow, true_and]
    have hcount : (range ratio).count (rank % ratio) = 1 :=
      count_eq_one_of_mem nodup_range (mem_range.2 hmod)
    rw [filter_eq, hcount]
    rfl
  · simp [hrow]

end Ranks

/-! ## What is received -/

section Received

variable (useMla : Bool) (reqId remoteRequestId : RequestId)

/-- What a producer rank receives for a request from all consumer ranks, in the order of the ranks. -/
def receivedNotifs (producerSize consumerSize rank : ℕ) : Except PyError (List Notif) := do
  let sent ← (List.range consumerSize).mapM fun tpRank =>
    readBlocksForReq useMla reqId remoteRequestId tpRank consumerSize producerSize
  return (sent.flatten.filter (·.1 = rank)).map (·.2)

end Received

variable {useMla : Bool} {reqId remoteRequestId : RequestId}

/-- A consumer with at least as many ranks: each reads from one producer rank. -/
lemma readBlocksForReq_of_le (hsize : 0 < producerSize) (hratio : 0 < ratio) (tpRank : ℕ) :
    readBlocksForReq useMla reqId remoteRequestId tpRank (producerSize * ratio) producerSize =
      .ok [(tpRank / ratio, ⟨remoteRequestId, producerSize * ratio⟩)] := by
  have hpos : (0 : ℤ) < ratio := by exact_mod_cast hratio
  have hnot : ¬(useMla = true ∧ (ratio : ℤ) < 0) := fun h => absurd h.2 (not_lt_of_gt hpos)
  have hnot' : ¬(useMla = true ∧ (ratio : ℤ) < 0 ∧ 0 < 0) := fun h => absurd h.2.2 (lt_irrefl 0)
  unfold readBlocksForReq getTargetRemoteRanks
  rw [tpRatio_mul hsize hratio]
  simp only [bind, Except.bind, pure, Except.pure, if_pos hpos, Int.toNat_natCast, readNotifs, if_neg hnot,
    if_neg hnot', append_nil]

/-- Without MLA every rank is read from. -/
lemma readNotifs_reads (ratio : ℤ) (worldSize : ℕ) (agents : List ℕ) (i : ℕ) (ranks : List ℕ) :
    readNotifs false ratio reqId remoteRequestId worldSize agents i ranks =
      ranks.map fun rank => (rank, ⟨remoteRequestId, worldSize⟩) := by
  induction ranks generalizing i with
  | nil => rfl
  | cons rank ranks ih => simp [readNotifs, ih]

/-- With MLA and more producer ranks only the first one is read from, and the others are notified. -/
lemma readNotifs_first {ratio : ℤ} (hratio : ratio < 0) (worldSize first : ℕ) {others : List ℕ}
    (hothers : first ∉ others) :
    readNotifs true ratio reqId remoteRequestId worldSize (first :: others) 0 (first :: others) =
      (first, ⟨remoteRequestId, worldSize⟩) :: others.map fun rank => (rank, ⟨reqId, worldSize⟩) := by
  have hfilter : (first :: others).filter (· ≠ first) = others := by
    rw [filter_cons_of_neg (by simp), filter_eq_self]
    intro rank hrank
    exact decide_eq_true fun heq => hothers (heq ▸ hrank)
  have hrest : readNotifs true ratio reqId remoteRequestId worldSize (first :: others) 1 others = [] := by
    cases others with
    | nil => rfl
    | cons rank others => simp [readNotifs, hratio]
  rw [readNotifs, hfilter, hrest]
  simp [hratio]

/-- A consumer with fewer ranks: each notifies a row of producer ranks. Without MLA it reads from all of
them, with MLA from the first one. -/
lemma readBlocksForReq_of_lt (hsize : 0 < consumerSize) (hratio : 1 < ratio) (tpRank : ℕ) :
    readBlocksForReq useMla reqId remoteRequestId tpRank consumerSize (consumerSize * ratio) =
      .ok ((range ratio).map fun i => (tpRank * ratio + i,
        ⟨if useMla = true ∧ i ≠ 0 then reqId else remoteRequestId, consumerSize⟩)) := by
  have hneg : -(ratio : ℤ) < 0 := by
    have hpos : (0 : ℤ) < ratio := by exact_mod_cast Nat.zero_lt_of_lt hratio
    omega
  unfold readBlocksForReq getTargetRemoteRanks
  rw [tpRatio_of_mul hsize hratio]
  simp only [bind, Except.bind, pure, Except.pure, if_neg (not_lt_of_gt hneg), neg_neg, Int.toNat_natCast]
  congr 1
  cases useMla with
  | false => simp [readNotifs_reads]
  | true =>
    obtain ⟨others, rfl⟩ : ∃ others, ratio = others + 1 := ⟨ratio - 1, by omega⟩
    rw [range_succ_eq_map, map_cons, map_map, readNotifs_first hneg consumerSize]
    · simp
    · simp

/-- Every producer rank is read by as many consumer ranks as there are for one. -/
lemma length_filter_div (hratio : 0 < ratio) (hrank : rank < size) :
    ((range (size * ratio)).filter fun tpRank => tpRank / ratio = rank).length = ratio := by
  have hinterval : (Finset.range (size * ratio)).filter (fun tpRank => tpRank / ratio = rank) =
      Finset.Ico (rank * ratio) (rank * ratio + ratio) := by
    ext tpRank
    rw [Finset.mem_filter, Finset.mem_range, Finset.mem_Ico, Nat.div_eq_iff hratio]
    have hle : (rank + 1) * ratio ≤ size * ratio := Nat.mul_le_mul_right ratio hrank
    rw [Nat.add_mul, Nat.one_mul] at hle
    omega
  have hcard := congrArg Finset.card hinterval
  rw [Nat.card_Ico, Nat.add_sub_cancel_left] at hcard
  exact hcard

lemma receivedNotifs_of_le (hsize : 0 < producerSize) (hratio : 0 < ratio)
    (hrank : rank < producerSize) :
    receivedNotifs useMla reqId remoteRequestId producerSize (producerSize * ratio) rank =
      .ok (List.replicate ratio ⟨remoteRequestId, producerSize * ratio⟩) := by
  rw [receivedNotifs, mapM_of_ok fun tpRank _ => readBlocksForReq_of_le hsize hratio tpRank]
  have hflatten : ((range (producerSize * ratio)).map fun tpRank =>
      [(tpRank / ratio, (⟨remoteRequestId, producerSize * ratio⟩ : Notif))]).flatten =
      (range (producerSize * ratio)).map fun tpRank =>
        (tpRank / ratio, ⟨remoteRequestId, producerSize * ratio⟩) := by
    rw [← flatMap_def, map_eq_flatMap]
  simp only [bind, Except.bind, pure, Except.pure, hflatten, filter_map, map_map]
  congr 1
  rw [eq_replicate_iff]
  refine ⟨?_, ?_⟩
  · rw [length_map]
    exact length_filter_div hratio hrank
  · intro notif hnotif
    obtain ⟨_, -, rfl⟩ := mem_map.1 hnotif
    rfl

lemma flatMap_ite (as : List α) (p : α → Prop) [DecidablePred p] (f : α → β) :
    (as.flatMap fun a => if p a then [f a] else []) = (as.filter p).map f := by
  induction as with
  | nil => rfl
  | cons a as ih =>
    rw [flatMap_cons, ih]
    by_cases ha : p a
    · simp [ha]
    · simp [ha]

lemma receivedNotifs_of_lt (hsize : 0 < consumerSize) (hratio : 1 < ratio)
    (hrank : rank < consumerSize * ratio) :
    receivedNotifs useMla reqId remoteRequestId (consumerSize * ratio) consumerSize rank =
      .ok [⟨if useMla = true ∧ rank % ratio ≠ 0 then reqId else remoteRequestId, consumerSize⟩] := by
  have hpos : 0 < ratio := Nat.zero_lt_of_lt hratio
  have hrow : rank / ratio < consumerSize := (Nat.div_lt_iff_lt_mul hpos).2 hrank
  rw [receivedNotifs, mapM_of_ok fun tpRank _ => readBlocksForReq_of_lt hsize hratio tpRank]
  simp only [bind, Except.bind, pure, Except.pure, ← flatMap_def, filter_flatMap, filter_map]
  congr 1
  have hone (tpRank : ℕ) : ((range ratio).filter
      ((fun sent : ℕ × Notif => decide (sent.1 = rank)) ∘ fun i => (tpRank * ratio + i,
        ⟨if useMla = true ∧ i ≠ 0 then reqId else remoteRequestId, consumerSize⟩))) =
      if tpRank = rank / ratio then [rank % ratio] else [] :=
    filter_row hpos tpRank rank
  simp only [hone, apply_ite, map_cons, map_nil]
  have hcount : (range consumerSize).count (rank / ratio) = 1 :=
    count_eq_one_of_mem nodup_range (mem_range.2 hrow)
  rw [flatMap_ite, filter_eq, hcount]
  rfl

/-! ## What is waited for -/

lemma consumersPerProducer_mul (hsize : 0 < size) (hratio : 0 < ratio) :
    SendState.consumersPerProducer size (size * ratio) = .ok (ratio : ℤ) := by
  rw [SendState.consumersPerProducer]
  by_cases hone : ratio = 1
  · subst hone
    have hratio' : tpRatio size (size * 1) = .ok 1 := by
      have hmul := tpRatio_mul hsize hratio
      rw [Nat.mul_one] at hmul ⊢
      exact hmul
    rw [hratio']
    simp [bind, Except.bind, pure, Except.pure]
  · have hlt : size < size * ratio := lt_mul_of_one_lt_right hsize (by omega)
    rw [tpRatio_of_mul hsize (by omega)]
    simp only [bind, Except.bind, pure, Except.pure, if_pos hlt, neg_neg]

lemma consumersPerProducer_of_mul (hsize : 0 < size) (hratio : 1 < ratio) :
    SendState.consumersPerProducer (size * ratio) size = .ok 1 := by
  have hlt : size < size * ratio := lt_mul_of_one_lt_right hsize hratio
  rw [SendState.consumersPerProducer, tpRatio_mul hsize (Nat.zero_lt_of_lt hratio)]
  simp only [bind, Except.bind, pure, Except.pure, if_neg (Nat.not_lt_of_gt hlt)]

namespace SendState

variable {s : SendState} {worldSize consumers : ℕ} {notif : Notif}

section

variable (hconsumers : consumersPerProducer worldSize notif.tpSize = .ok (consumers : ℤ))
include hconsumers

/-- The last notification that a producer rank waits for. -/
lemma countNotif_last
    (hprocess : s.reqsToProcess notif.reqId = true) (hcount : s.notificationCounts notif.reqId + 1 = consumers)
    (notified : List RequestId) :
    countNotif worldSize (s, notified) notif =
      .ok ({ reqsToSend := update s.reqsToSend notif.reqId none
             reqsToProcess := update s.reqsToProcess notif.reqId false
             notificationCounts := update s.notificationCounts notif.reqId 0 },
        notified.insert notif.reqId) := by
  have hlast : ((s.notificationCounts notif.reqId + 1 : ℕ) : ℤ) = consumers := by exact_mod_cast hcount
  simp only [countNotif, hprocess, hconsumers, hlast, bind, Except.bind, if_true, Bool.not_true, Bool.and_false,
    Bool.false_eq_true, if_false]

/-- One that is not the last. -/
lemma countNotif_earlier
    (hprocess : s.reqsToProcess notif.reqId = true) (hcount : s.notificationCounts notif.reqId + 1 ≠ consumers)
    (notified : List RequestId) :
    countNotif worldSize (s, notified) notif =
      .ok ({ s with
        notificationCounts := update s.notificationCounts notif.reqId
          (s.notificationCounts notif.reqId + 1) }, notified) := by
  have hnot : ¬((s.notificationCounts notif.reqId + 1 : ℕ) : ℤ) = consumers := by exact_mod_cast hcount
  simp only [countNotif, hprocess, hconsumers, if_neg hnot, bind, Except.bind, Bool.not_true, Bool.and_false,
    Bool.false_eq_true, if_false]

/-- A producer rank reports a request with the last notification that it waits for. -/
lemma foldlM_countNotif {left : ℕ}
    (hprocess : s.reqsToProcess notif.reqId = true)
    (hleft : s.notificationCounts notif.reqId + (left + 1) = consumers) (notified : List RequestId) :
    ∃ s' notified', (List.replicate (left + 1) notif).foldlM (countNotif worldSize) (s, notified) =
      .ok (s', notified') ∧ notif.reqId ∈ notified' := by
  induction left generalizing s with
  | zero =>
    have hfold : (List.replicate (0 + 1) notif).foldlM (countNotif worldSize) (s, notified) =
        countNotif worldSize (s, notified) notif := by
      simp
    exact ⟨_, _, hfold.trans (countNotif_last hconsumers hprocess hleft notified), mem_insert_self⟩
  | succ left ih =>
    obtain ⟨s', notified', hfold, hmem⟩ := ih (s := { s with
        notificationCounts := update s.notificationCounts notif.reqId
          (s.notificationCounts notif.reqId + 1) }) hprocess
      (by simp only [update_self]; omega)
    refine ⟨s', notified', ?_, hmem⟩
    have hfirst := countNotif_earlier hconsumers hprocess (by omega) notified
    rw [replicate_succ, foldlM_cons, hfirst]
    exact hfold

end

end SendState

/-! ## Every rank reports the request -/

/-- Every producer rank receives as many notifications with its id of the request as it waits for, and
reports the request when it has got them, in whatever order. -/
def AllReported (useMla : Bool) (reqId remoteRequestId : RequestId) (producerSize consumerSize : ℕ) : Prop :=
  ∀ rank < producerSize, ∃ notifs consumers,
    receivedNotifs useMla reqId remoteRequestId producerSize consumerSize rank = .ok notifs ∧
      SendState.consumersPerProducer producerSize consumerSize = .ok consumers ∧
      ((notifs.filter (·.reqId = remoteRequestId)).length : ℤ) = consumers ∧
      ∀ arrived, arrived.Perm notifs → ∀ s : SendState, s.reqsToProcess remoteRequestId = true →
        s.notificationCounts remoteRequestId = 0 →
        ∃ s' notified, s.getNewNotifs producerSize arrived = .ok (s', notified) ∧ remoteRequestId ∈ notified

/-- If all that the ranks receive is as many notifications of the request as they wait for, they report it. -/
lemma allReported_of_replicate {consumers : ℕ} (hpos : 0 < consumers)
    (hreceived : ∀ rank < producerSize, receivedNotifs useMla reqId remoteRequestId producerSize consumerSize rank =
      .ok (List.replicate consumers ⟨remoteRequestId, consumerSize⟩))
    (hconsumers : SendState.consumersPerProducer producerSize consumerSize = .ok (consumers : ℤ)) :
    AllReported useMla reqId remoteRequestId producerSize consumerSize := by
  intro rank hrank
  refine ⟨_, _, hreceived rank hrank, hconsumers, ?_, ?_⟩
  · simp
  · intro arrived harrived s hprocess hcount
    obtain ⟨left, rfl⟩ : ∃ left, consumers = left + 1 := ⟨consumers - 1, by omega⟩
    rw [perm_replicate.1 harrived]
    have hleft : s.notificationCounts remoteRequestId + (left + 1) = left + 1 := by omega
    exact SendState.foldlM_countNotif hconsumers hprocess hleft []

/-- Every producer rank reports the request without waiting for the timeout, unless the cache is replicated,
there are more producer ranks, and the request has another id on the consumer. -/
theorem allReported_iff {producerSize consumerSize : ℕ} (hproducer : 0 < producerSize) (hconsumer : 0 < consumerSize)
    (hdvd : producerSize ∣ consumerSize ∨ consumerSize ∣ producerSize) :
    AllReported useMla reqId remoteRequestId producerSize consumerSize ↔
      ¬(useMla = true ∧ consumerSize < producerSize ∧ reqId ≠ remoteRequestId) := by
  by_cases hle : producerSize ≤ consumerSize
  · obtain ⟨ratio, rfl⟩ : producerSize ∣ consumerSize := by
      rcases hdvd with hdvd | hdvd
      · exact hdvd
      · rw [Nat.le_antisymm hle (Nat.le_of_dvd hproducer hdvd)]
    have hratio : 0 < ratio := Nat.pos_of_mul_pos_left hconsumer
    constructor
    · rintro - ⟨-, hlt, -⟩
      omega
    · intro _
      exact allReported_of_replicate hratio (fun _ => receivedNotifs_of_le hproducer hratio)
        (consumersPerProducer_mul hproducer hratio)
  · obtain ⟨ratio, rfl⟩ : consumerSize ∣ producerSize := by
      rcases hdvd with hdvd | hdvd
      · exact absurd (Nat.le_of_dvd hconsumer hdvd) hle
      · exact hdvd
    have hratio : 1 < ratio := by
      by_contra hnot
      have hmul : consumerSize * ratio ≤ consumerSize * 1 := Nat.mul_le_mul_left consumerSize (by omega)
      omega
    have hwaits := consumersPerProducer_of_mul hconsumer hratio
    constructor
    · rintro hall ⟨hmla, -, hne⟩
      have hone : 1 < consumerSize * ratio := hratio.trans_le (Nat.le_mul_of_pos_left ratio hconsumer)
      obtain ⟨notifs, consumers, hreceived, hconsumers, hlength, -⟩ := hall 1 hone
      rw [receivedNotifs_of_lt hconsumer hratio hone] at hreceived
      rw [hwaits] at hconsumers
      cases hreceived
      cases hconsumers
      simp [hmla, Nat.mod_eq_of_lt hratio, hne] at hlength
    · intro hnot
      refine allReported_of_replicate one_pos (fun rank hrank => ?_) hwaits
      rw [receivedNotifs_of_lt hconsumer hratio hrank]
      have hid : (if useMla = true ∧ rank % ratio ≠ 0 then reqId else remoteRequestId) = remoteRequestId := by
        split
        · rename_i hother
          by_contra hne
          exact hnot ⟨hother.1, by omega, hne⟩
        · rfl
      rw [hid]
      rfl

/-- Four producer ranks and two consumer ranks without MLA. -/
theorem allReported_iff_fourRanks : AllReported false 7 3 4 2 :=
  (allReported_iff (by decide) (by decide) (by decide)).2 (by decide)

/-- Two producer ranks and one consumer rank with MLA, where request 3 has the id 7 on the consumer: the
second producer rank gets a notification for 7 only. -/
theorem not_allReported_otherId : ¬AllReported true 7 3 2 1 := by
  intro hall
  obtain ⟨notifs, consumers, hreceived, hconsumers, hlength, -⟩ := hall 1 (by decide)
  have hnotifs : receivedNotifs true 7 3 2 1 1 = .ok [⟨7, 1⟩] := by decide +kernel
  have hwaits : SendState.consumersPerProducer 2 1 = .ok 1 := by decide +kernel
  obtain rfl := Except.ok.inj (hreceived.symm.trans hnotifs)
  obtain rfl := Except.ok.inj (hconsumers.symm.trans hwaits)
  simp at hlength

end VllmRuntime.Nixl
