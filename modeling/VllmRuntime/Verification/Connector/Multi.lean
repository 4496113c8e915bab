import VllmRuntime.Model.MultiConnector
import VllmRuntime.Shared.Runs

/-! A request is returned as finished sending once, when every connector that saves it has reported it, as
long as the count of these connectors reaches the worker before their reports. -/

namespace VllmRuntime.MultiConnector

open List Function

/-! ## Counting reports -/

/-- The entry of `_extra_async_saves` for a request that so many connectors have to report. -/
def entry : ℕ → Option ℕ
  | 0 => none
  | 1 => none
  | pending + 2 => some (pending + 1)

/-- The reports of all children in one call, one after the other. -/
lemma foldlM_reports (reports : List (List RequestId × List RequestId)) (counted : ExtraSaves × List RequestId) :
    reports.foldlM (fun counted report => report.1.foldlM countReport counted) counted =
      (reports.flatMap (·.1)).foldlM countReport counted := by
  induction reports generalizing counted with
  | nil => rfl
  | cons report reports ih =>
    rw [foldlM_cons, flatMap_cons, foldlM_append]
    exact bind_congr ih

/-- One report of a request that has to be reported so many times. -/
lemma countReport_eq {saves : ExtraSaves} {requestId : RequestId} {pending : ℕ}
    (h : saves requestId = entry (pending + 1)) (finished : List RequestId) :
    countReport (saves, finished) requestId = .ok (update saves requestId (entry pending),
      if pending = 0 then finished.insert requestId else finished) := by
  match pending with
  | 0 =>
    have hnone : saves requestId = none := h
    have hsame : update saves requestId (entry 0) = saves := by
      rw [show entry 0 = saves requestId from hnone.symm, update_eq_self]
    simp [countReport, hnone, hsame]
  | 1 => simp [countReport, h, entry]
  | pending + 2 => simp [countReport, h, entry]

/-- The loops of `get_finished`: every report lowers the count, and a request is finished with the last. -/
lemma foldlM_countReport (saves : ExtraSaves) (pending : RequestId → ℕ) {reports : List RequestId}
    (hsaves : ∀ requestId ∈ reports, saves requestId = entry (pending requestId))
    (hcount : ∀ requestId ∈ reports, reports.count requestId ≤ pending requestId) (finished : List RequestId) :
    ∃ saves' finished', reports.foldlM countReport (saves, finished) = .ok (saves', finished') ∧
      (∀ requestId, saves' requestId = if requestId ∈ reports then
        entry (pending requestId - reports.count requestId) else saves requestId) ∧
      ∀ requestId, requestId ∈ finished' ↔ requestId ∈ finished ∨
        requestId ∈ reports ∧ reports.count requestId = pending requestId := by
  induction reports generalizing saves pending finished with
  | nil => exact ⟨saves, finished, rfl, by simp, by simp⟩
  | cons head reports ih =>
    obtain ⟨left, hleft⟩ : ∃ left, pending head = left + 1 := by
      have hle := hcount head mem_cons_self
      rw [count_cons_self] at hle
      exact ⟨pending head - 1, by omega⟩
    have hhead := hsaves head mem_cons_self
    rw [hleft] at hhead
    have hcountHead := hcount head mem_cons_self
    rw [count_cons_self, hleft] at hcountHead
    obtain ⟨saves', finished', hfold, hsaves', hfinished'⟩ := ih
      (update saves head (entry left)) (update pending head left)
      (fun requestId hmem => by
        by_cases hreq : requestId = head
        · subst hreq
          simp
        · simpa [hreq] using hsaves requestId (mem_cons_of_mem _ hmem))
      (fun requestId hmem => by
        by_cases hreq : requestId = head
        · subst hreq
          rw [update_self]
          omega
        · have hle := hcount requestId (mem_cons_of_mem _ hmem)
          rw [count_cons_of_ne (Ne.symm hreq)] at hle
          simpa [hreq] using hle)
      (if left = 0 then finished.insert head else finished)
    refine ⟨saves', finished', ?_, ?_, ?_⟩
    · rw [foldlM_cons, countReport_eq hhead]
      exact hfold
    · intro requestId
      rw [hsaves']
      by_cases hreq : requestId = head
      · subst hreq
        rw [update_self, update_self, if_pos mem_cons_self, count_cons_self, hleft]
        split
        · congr 1
          omega
        · rename_i hnot
          rw [count_eq_zero.2 hnot]
          rfl
      · simp only [update_of_ne hreq, mem_cons, hreq, false_or,
          count_cons_of_ne (Ne.symm hreq)]
    · intro requestId
      rw [hfinished']
      by_cases hreq : requestId = head
      · subst hreq
        simp only [update_self, mem_cons, true_or, true_and, count_cons_self, hleft,
          Nat.add_right_cancel_iff]
        by_cases hzero : left = 0
        · subst hzero
          have hnot : reports.count requestId = 0 := by omega
          simp [hnot]
        · rw [if_neg hzero]
          constructor
          · rintro (hmem | ⟨-, heq⟩)
            · exact .inl hmem
            · exact .inr heq
          · rintro (hmem | heq)
            · exact .inl hmem
            · exact .inr ⟨count_pos_iff.1 (by omega), heq⟩
      · simp only [update_of_ne hreq, mem_cons, hreq, false_or,
          count_cons_of_ne (Ne.symm hreq)]
        split
        · simp [hreq]
        · rfl

/-! ## The two sides together -/

/-- Both sides of a `MultiConnector` with the metadata on the way between them, the children that save a
request, those that have reported it, and in how many results of `get_finished` it was returned. -/
structure Sides where
  schedulerSaves : ExtraSaves
  inFlight : List ExtraSaves
  workerSaves : ExtraSaves
  finished : RequestId → Bool
  saves : RequestId → ℕ → Bool
  reported : RequestId → ℕ → Bool
  delivered : RequestId → ℕ

/-- The calls on the connector, with what its children return. -/
inductive MultiCall (π : Type) where
  | requestFinished (requestId : RequestId) (results : ℕ → Bool × Option π)
  | buildConnectorMeta
  | bindConnectorMetadata
  | getFinished (reports : ℕ → List RequestId × List RequestId)

namespace Sides

variable {π : Type}

def new : Sides where
  schedulerSaves _ := none
  inFlight := []
  workerSaves _ := none
  finished _ := false
  saves _ _ := false
  reported _ _ := false
  delivered _ := 0

section Run

/- The number of children. -/
variable (n : ℕ)

def run : MultiCall π → Sides → Except PyError Sides
  | .requestFinished requestId results, s => do
    let result ← MultiConnector.requestFinished s.schedulerSaves requestId ((List.range n).map results)
    return { s with
      schedulerSaves := result.1
      finished := update s.finished requestId true
      saves := update s.saves requestId fun i => (results i).1 }
  | .buildConnectorMeta, s =>
    .ok { s with schedulerSaves := fun _ => none, inFlight := s.inFlight ++ [s.schedulerSaves] }
  | .bindConnectorMetadata, s =>
    match s.inFlight with
    | [] => .ok s
    | metadata :: inFlight =>
      .ok { s with inFlight, workerSaves := MultiConnector.bindConnectorMetadata s.workerSaves metadata }
  | .getFinished reports, s => do
    let result ← MultiConnector.getFinished s.workerSaves ((List.range n).map reports)
    return { s with
      workerSaves := result.1
      reported := fun requestId i => s.reported requestId i || decide (requestId ∈ (reports i).1)
      delivered := fun requestId =>
        s.delivered requestId + if requestId ∈ result.2.1 then 1 else 0 }

/-- How many children save the request. -/
def savers (s : Sides) (requestId : RequestId) : ℕ := (List.range n).countP (s.saves requestId)

/-- How many of them have not reported it. -/
def waiting (s : Sides) (requestId : RequestId) : ℕ :=
  (List.range n).countP fun i => s.saves requestId i && !s.reported requestId i

/-- The count of the children that save a request has left the scheduler and has reached the worker. -/
def Arrived (s : Sides) (requestId : RequestId) : Prop :=
  s.schedulerSaves requestId = none ∧ ∀ metadata ∈ s.inFlight, metadata requestId = none

/-- What the scheduler and the children do: a request is finished once, and a child reports a request that it
saves once, at any time after its finish. -/
def Possible (s : Sides) : MultiCall π → Prop
  | .requestFinished requestId _ => s.finished requestId = false
  | .getFinished reports => ∀ i < n, (reports i).1.Nodup ∧
      ∀ requestId ∈ (reports i).1, s.saves requestId i = true ∧ s.reported requestId i = false
  | .buildConnectorMeta | .bindConnectorMetadata => True

/-- In addition, the count reaches the worker before any report of a request that several children save. -/
def Allowed (s : Sides) (call : MultiCall π) : Prop :=
  s.Possible n call ∧
    match call with
    | .getFinished reports => ∀ i < n, ∀ requestId ∈ (reports i).1, 1 < s.savers n requestId → s.Arrived requestId
    | _ => True

/-- A request is returned once, when all children that save it have reported it, and nothing of its count is
left then. -/
structure Sound (s : Sides) : Prop where
  delivered_eq : ∀ requestId,
    s.delivered requestId = if 0 < s.savers n requestId ∧ s.waiting n requestId = 0 then 1 else 0
  no_entry : ∀ requestId, s.waiting n requestId = 0 → s.Arrived requestId ∧ s.workerSaves requestId = none

/-- What holds of a request: its count is at the worker, or on the way and no child has reported it. -/
structure RequestInv (s : Sides) (requestId : RequestId) : Prop where
  place : (s.Arrived requestId ∧ s.workerSaves requestId = entry (s.waiting n requestId)) ∨
    (s.workerSaves requestId = none ∧ 1 < s.savers n requestId ∧
      s.waiting n requestId = s.savers n requestId ∧
      ((s.schedulerSaves requestId = entry (s.savers n requestId) ∧
          ∀ metadata ∈ s.inFlight, metadata requestId = none) ∨
        (s.schedulerSaves requestId = none ∧ ∃ before metadata after, s.inFlight = before ++ metadata :: after ∧
          metadata requestId = entry (s.savers n requestId) ∧
          (∀ other ∈ before, other requestId = none) ∧ ∀ other ∈ after, other requestId = none)))
  delivered_eq : s.delivered requestId =
    if 0 < s.savers n requestId ∧ s.waiting n requestId = 0 then 1 else 0
  unfinished : s.finished requestId = false → ∀ i < n, s.saves requestId i = false
  reported_saves : ∀ i < n, s.reported requestId i = true → s.saves requestId i = true

end Run

variable {n : ℕ} {s s' : Sides} {requestId : RequestId} {p q : ℕ → Bool}

lemma countP_range_congr (h : ∀ i < n, p i = q i) :
    (range n).countP p = (range n).countP q := by
  refine countP_congr ?_
  intro i hi
  rw [h i (mem_range.1 hi)]

namespace RequestInv

variable {k : ℕ}

/-- What concerns one request only depends on what the sides have for it. -/
lemma congr (h : RequestInv n s requestId) (hinFlight : s'.inFlight = s.inFlight)
    (hscheduler : s'.schedulerSaves requestId = s.schedulerSaves requestId)
    (hworker : s'.workerSaves requestId = s.workerSaves requestId)
    (hfinished : s'.finished requestId = s.finished requestId)
    (hsaves : ∀ i < n, s'.saves requestId i = s.saves requestId i)
    (hreported : ∀ i < n, s'.reported requestId i = s.reported requestId i)
    (hdelivered : s'.delivered requestId = s.delivered requestId) : RequestInv n s' requestId := by
  have hsavers : s'.savers n requestId = s.savers n requestId := countP_range_congr hsaves
  have hwaiting : s'.waiting n requestId = s.waiting n requestId :=
    countP_range_congr fun i hi => by rw [hsaves i hi, hreported i hi]
  refine ⟨?_, ?_, ?_, ?_⟩
  · rw [Arrived, hinFlight, hscheduler, hworker, hsavers, hwaiting]
    exact h.place
  · rw [hdelivered, hsavers, hwaiting]
    exact h.delivered_eq
  · intro hnot i hi
    rw [hsaves i hi]
    exact h.unfinished (hfinished ▸ hnot) i hi
  · intro i hi hrep
    rw [hsaves i hi]
    rw [hreported i hi] at hrep
    exact h.reported_saves i hi hrep

/-! ## The scheduler side -/

lemma foldlM_countSaves {results : List (Bool × Option π)} {counted counted' : ℕ × Option π}
    (h : results.foldlM countSaves counted = .ok counted') : counted'.1 = counted.1 + results.countP (·.1) := by
  induction results generalizing counted with
  | nil =>
    cases h
    rfl
  | cons result results ih =>
    rw [foldlM_cons] at h
    obtain ⟨counted₁, hcount, h⟩ := bind_eq_ok h
    have hfirst : counted₁.1 = if result.1 then counted.1 + 1 else counted.1 := by
      simp only [countSaves] at hcount
      generalize (if result.1 then counted.1 + 1 else counted.1) = saves at hcount ⊢
      split at hcount
      · cases hcount
      · exact congrArg Prod.fst (Except.ok.inj hcount).symm
      · exact congrArg Prod.fst (Except.ok.inj hcount).symm
    rw [ih h, hfirst, countP_cons]
    cases result.1 with
    | true =>
      simp only [if_true]
      omega
    | false => simp

lemma entry_of_lt (h : 1 < k) : entry k = some (k - 1) := by
  match k with
  | k + 2 => rfl

lemma entry_of_le (h : k ≤ 1) : entry k = none := by
  match k with
  | 0 => rfl
  | 1 => rfl

lemma requestFinished (hall : ∀ requestId, RequestInv n s requestId) {finishedId : RequestId}
    {results : ℕ → Bool × Option π} (hpossible : s.finished finishedId = false)
    (hrun : run n (.requestFinished finishedId results) s = .ok s') : RequestInv n s' requestId := by
  obtain ⟨result, hresult, hs'⟩ := bind_eq_ok hrun
  cases hs'
  obtain ⟨counted, hcounted, rfl⟩ := map_eq_ok hresult
  have hcount : counted.1 = (range n).countP fun i => (results i).1 := by
    have hsum := foldlM_countSaves hcounted
    rw [countP_map, Nat.zero_add] at hsum
    exact hsum
  have h := hall requestId
  by_cases hid : requestId = finishedId
  · subst hid
    have hnone : ∀ i < n, s.reported requestId i = false := by
      intro i hi
      by_contra hrep
      rw [Bool.not_eq_false] at hrep
      have hsaves := h.reported_saves i hi hrep
      rw [h.unfinished hpossible i hi] at hsaves
      cases hsaves
    have hold : s.savers n requestId = 0 := by
      rw [savers, countP_eq_zero]
      intro i hi
      rw [h.unfinished hpossible i (mem_range.1 hi)]
      decide
    obtain ⟨harrived, hworker⟩ : s.Arrived requestId ∧ s.workerSaves requestId = none := by
      have hwait : s.waiting n requestId = 0 := by
        rw [waiting, countP_eq_zero]
        intro i hi
        simp [h.unfinished hpossible i (mem_range.1 hi)]
      rcases h.place with ⟨harrived, hworker⟩ | ⟨-, hlt, -⟩
      · rw [hwait] at hworker
        exact ⟨harrived, hworker⟩
      · omega
    generalize hnew : ({ s with
      schedulerSaves := if 1 < counted.1 then update s.schedulerSaves requestId (some (counted.1 - 1))
        else s.schedulerSaves
      finished := update s.finished requestId true
      saves := update s.saves requestId fun i => (results i).1 } : Sides) = new
    have hsavers : new.savers n requestId = counted.1 := by
      rw [hcount, ← hnew]
      simp only [savers, update_self]
    have hwaiting : new.waiting n requestId = counted.1 := by
      rw [hcount, ← hnew, waiting]
      refine countP_range_congr ?_
      intro i hi
      simp [hnone i hi]
    have hdelivered : new.delivered requestId = 0 := by
      have hzero := h.delivered_eq
      rw [hold] at hzero
      rw [← hnew]
      simpa using hzero
    refine ⟨?_, ?_, ?_, ?_⟩
    · rw [hsavers, hwaiting, Arrived, ← hnew]
      by_cases hlt : 1 < counted.1
      · refine .inr ⟨hworker, hlt, rfl, .inl ⟨?_, harrived.2⟩⟩
        simp only [if_pos hlt, update_self, entry_of_lt hlt]
      · refine .inl ⟨⟨?_, harrived.2⟩, ?_⟩
        · simp only [if_neg hlt]
          exact harrived.1
        · rw [entry_of_le (by omega)]
          exact hworker
    · rw [hdelivered, hsavers, hwaiting, if_neg]
      omega
    · intro hnot
      rw [← hnew] at hnot
      simp at hnot
    · intro i hi hrep
      rw [← hnew] at hrep
      rw [hnone i hi] at hrep
      cases hrep
  · refine h.congr rfl ?_ rfl ?_ ?_ (fun _ _ => rfl) rfl
    · dsimp only
      split
      · exact update_of_ne hid _ _
      · rfl
    · exact update_of_ne hid _ _
    · intro i _
      dsimp only
      rw [update_of_ne hid]

lemma buildConnectorMeta (h : RequestInv n s requestId) :
    RequestInv n { s with schedulerSaves := fun _ => none, inFlight := s.inFlight ++ [s.schedulerSaves] }
      requestId := by
  refine ⟨?_, h.delivered_eq, h.unfinished, h.reported_saves⟩
  rcases h.place with ⟨⟨hscheduler, hflight⟩, hworker⟩ |
    ⟨hworker, hlt, hwaiting, ⟨hscheduler, hflight⟩ |
      ⟨hscheduler, before, metadata, after, heq, hmetadata, hbefore, hafter⟩⟩
  · refine .inl ⟨⟨rfl, ?_⟩, hworker⟩
    intro metadata hmem
    rcases mem_append.1 hmem with hmem | hmem
    · exact hflight metadata hmem
    · obtain rfl := mem_singleton.1 hmem
      exact hscheduler
  · exact .inr ⟨hworker, hlt, hwaiting, .inr ⟨rfl, s.inFlight, s.schedulerSaves, [], rfl, hscheduler, hflight,
      fun _ hmem => nomatch hmem⟩⟩
  · refine .inr ⟨hworker, hlt, hwaiting, .inr ⟨rfl, before, metadata, after ++ [s.schedulerSaves], ?_, hmetadata,
      hbefore, ?_⟩⟩
    · simp [heq]
    · intro other hmem
      rcases mem_append.1 hmem with hmem | hmem
      · exact hafter other hmem
      · obtain rfl := mem_singleton.1 hmem
        exact hscheduler

/-! ## The worker side -/

lemma bindConnectorMetadata (h : RequestInv n s requestId) {metadata : ExtraSaves} {inFlight : List ExtraSaves}
    (heq : s.inFlight = metadata :: inFlight) :
    RequestInv n
      { s with inFlight, workerSaves := MultiConnector.bindConnectorMetadata s.workerSaves metadata } requestId := by
  have hunbound (hnone : metadata requestId = none) :
      MultiConnector.bindConnectorMetadata s.workerSaves metadata requestId = s.workerSaves requestId := by
    simp [MultiConnector.bindConnectorMetadata, hnone]
  refine ⟨?_, h.delivered_eq, h.unfinished, h.reported_saves⟩
  rcases h.place with ⟨⟨hscheduler, hflight⟩, hworker⟩ |
    ⟨hworker, hlt, hwaiting, ⟨hscheduler, hflight⟩ |
      ⟨hscheduler, before, bound, after, hsplit, hbound, hbefore, hafter⟩⟩
  · rw [heq] at hflight
    refine .inl ⟨⟨hscheduler, fun other hmem => hflight other (mem_cons_of_mem _ hmem)⟩, ?_⟩
    exact (hunbound (hflight metadata mem_cons_self)).trans hworker
  · rw [heq] at hflight
    refine .inr ⟨?_, hlt, hwaiting, .inl ⟨hscheduler, fun other hmem => hflight other (mem_cons_of_mem _ hmem)⟩⟩
    exact (hunbound (hflight metadata mem_cons_self)).trans hworker
  · rw [heq] at hsplit
    cases before with
    | nil =>
      obtain ⟨rfl, rfl⟩ := cons.inj hsplit
      refine .inl ⟨⟨hscheduler, hafter⟩, ?_⟩
      change (metadata requestId).or (s.workerSaves requestId) = entry (s.waiting n requestId)
      rw [hbound, hworker, hwaiting, Option.or_none]
    | cons first before =>
      obtain ⟨rfl, rfl⟩ := cons.inj hsplit
      refine .inr ⟨?_, hlt, hwaiting, .inr ⟨hscheduler, before, bound, after, rfl, hbound,
        fun other hmem => hbefore other (mem_cons_of_mem _ hmem), hafter⟩⟩
      exact (hunbound (hbefore metadata mem_cons_self)).trans hworker

end RequestInv

/-- The reports of one call: each is of a child that saves the request and has not reported it. -/
lemma count_add_countP {reports : ℕ → List RequestId} (children : List ℕ)
    (hreports : ∀ i ∈ children, (reports i).Nodup ∧ (requestId ∈ reports i → p i = true ∧ q i = false)) :
    (children.flatMap reports).count requestId +
        children.countP (fun i => p i && !(q i || decide (requestId ∈ reports i))) =
      children.countP fun i => p i && !q i := by
  induction children with
  | nil => rfl
  | cons i children ih =>
    obtain ⟨hnodup, hmem⟩ := hreports i mem_cons_self
    have hrest := ih fun j hj => hreports j (mem_cons_of_mem _ hj)
    rw [flatMap_cons, count_append, countP_cons, countP_cons]
    by_cases hreq : requestId ∈ reports i
    · obtain ⟨hp, hq⟩ := hmem hreq
      rw [count_eq_one_of_mem hnodup hreq]
      simp only [hp, hq, hreq, decide_true, Bool.or_true, Bool.not_true, Bool.and_false, Bool.not_false,
        Bool.and_true, Bool.false_eq_true, if_false, if_true]
      omega
    · rw [count_eq_zero.2 hreq]
      simp only [hreq, decide_false, Bool.or_false]
      omega

section GetFinished

variable {reports : ℕ → List RequestId × List RequestId}

/-- All reports of a call. -/
def allReports (n : ℕ) (reports : ℕ → List RequestId × List RequestId) : List RequestId :=
  (List.range n).flatMap fun i => (reports i).1

/-- `get_finished` does not fail; a request is returned with the last report of it. -/
lemma getFinished_spec (hall : ∀ requestId, RequestInv n s requestId)
    (hallowed : s.Allowed n (.getFinished reports : MultiCall π)) :
    ∃ saves finishedSending finishedRecving,
      MultiConnector.getFinished s.workerSaves ((range n).map reports) =
        .ok (saves, finishedSending, finishedRecving) ∧
      (∀ requestId, saves requestId = if requestId ∈ allReports n reports then
        entry (s.waiting n requestId - (allReports n reports).count requestId) else s.workerSaves requestId) ∧
      ∀ requestId, requestId ∈ finishedSending ↔ requestId ∈ allReports n reports ∧
        (allReports n reports).count requestId = s.waiting n requestId := by
  have hflat : ((range n).map reports).flatMap (·.1) = allReports n reports := by
    rw [allReports, flatMap_map]
  have hsaves : ∀ requestId ∈ allReports n reports, s.workerSaves requestId = entry (s.waiting n requestId) := by
    intro requestId hmem
    obtain ⟨i, hi, hreport⟩ := mem_flatMap.1 hmem
    rcases (hall requestId).place with ⟨-, hworker⟩ | ⟨-, hlt, hwaiting, hplace⟩
    · exact hworker
    · obtain ⟨hscheduler, hflight⟩ := hallowed.2 i (mem_range.1 hi) requestId hreport hlt
      rcases hplace with ⟨hentry, -⟩ | ⟨-, before, metadata, after, heq, hentry, -⟩
      · rw [hscheduler, RequestInv.entry_of_lt hlt] at hentry
        cases hentry
      · rw [hflight metadata (by simp [heq]), RequestInv.entry_of_lt hlt] at hentry
        cases hentry
  have hcount : ∀ requestId ∈ allReports n reports,
      (allReports n reports).count requestId ≤ s.waiting n requestId := by
    intro requestId _
    have hadd := count_add_countP (range n)
      fun i hi => ⟨(hallowed.1 i (mem_range.1 hi)).1, (hallowed.1 i (mem_range.1 hi)).2 requestId⟩
    exact Nat.le_of_add_right_le hadd.le
  obtain ⟨saves, finished, hfold, hsaves', hfinished⟩ := foldlM_countReport s.workerSaves (s.waiting n) hsaves hcount []
  refine ⟨saves, finished, (((range n).map reports).map (·.2)).foldl (· ∪ ·) [], ?_, hsaves', ?_⟩
  · rw [MultiConnector.getFinished, foldlM_reports, hflat, hfold]
    rfl
  · intro requestId
    rw [hfinished]
    simp

lemma waiting_getFinished (hpossible : s.Possible n (.getFinished reports : MultiCall π)) (requestId : RequestId)
    (saves : ExtraSaves) (delivered : RequestId → ℕ) :
    (allReports n reports).count requestId + waiting n { s with
      workerSaves := saves
      reported := fun requestId i => s.reported requestId i || decide (requestId ∈ (reports i).1)
      delivered := delivered } requestId = s.waiting n requestId :=
  count_add_countP (range n) fun i hi =>
    ⟨(hpossible i (mem_range.1 hi)).1, (hpossible i (mem_range.1 hi)).2 requestId⟩

end GetFinished

lemma waiting_le_savers (n : ℕ) (s : Sides) (requestId : RequestId) : s.waiting n requestId ≤ s.savers n requestId := by
  refine countP_mono_left ?_
  intro i _ hi
  exact (Bool.and_eq_true_iff.1 hi).1

/-- A request that is reported, and one that is not, after `get_finished`. -/
lemma getFinished_requestInv (hall : ∀ requestId, RequestInv n s requestId)
    {reports : ℕ → List RequestId × List RequestId} (hallowed : s.Allowed n (.getFinished reports : MultiCall π))
    (hrun : run n (.getFinished reports : MultiCall π) s = .ok s') (requestId : RequestId) :
    RequestInv n s' requestId := by
  obtain ⟨saves, sending, recving, hget, hsaves, hsending⟩ := getFinished_spec hall hallowed
  simp only [run, hget] at hrun
  cases hrun
  have h := hall requestId
  have hcount := waiting_getFinished hallowed.1 requestId saves fun requestId =>
    s.delivered requestId + if requestId ∈ sending then 1 else 0
  by_cases hmem : requestId ∈ allReports n reports
  · obtain ⟨i, hi, hreport⟩ := mem_flatMap.1 hmem
    have hpos : 0 < (allReports n reports).count requestId := count_pos_iff.2 hmem
    have hle := waiting_le_savers n s requestId
    have harrived : s.Arrived requestId := by
      rcases h.place with ⟨harrived, -⟩ | ⟨-, hlt, -⟩
      · exact harrived
      · exact hallowed.2 i (mem_range.1 hi) requestId hreport hlt
    refine ⟨.inl ⟨harrived, ?_⟩, ?_, h.unfinished, ?_⟩
    · refine (hsaves requestId).trans ?_
      rw [if_pos hmem]
      congr 1
      exact (Nat.eq_sub_of_add_eq' hcount).symm
    · have hold := h.delivered_eq
      rw [if_neg (by omega)] at hold
      have hsavers : savers n { s with
          workerSaves := saves
          reported := fun requestId i => s.reported requestId i || decide (requestId ∈ (reports i).1)
          delivered := fun requestId => s.delivered requestId + if requestId ∈ sending then 1 else 0 } requestId =
            s.savers n requestId := rfl
      dsimp only [pure, Except.pure]
      rw [hold, Nat.zero_add, hsavers]
      refine if_congr ?_ rfl rfl
      rw [hsending]
      constructor
      · rintro ⟨-, heq⟩
        exact ⟨by omega, by omega⟩
      · rintro ⟨-, hzero⟩
        exact ⟨hmem, by omega⟩
    · intro j hj hrep
      rcases Bool.or_eq_true_iff.1 hrep with hrep | hrep
      · exact h.reported_saves j hj hrep
      · exact ((hallowed.1 j hj).2 requestId (of_decide_eq_true hrep)).1
  · refine h.congr rfl rfl ?_ rfl (fun _ _ => rfl) ?_ ?_
    · exact (hsaves requestId).trans (if_neg hmem)
    · intro i hi
      have hnot : requestId ∉ (reports i).1 := fun hreport =>
        hmem (mem_flatMap.2 ⟨i, mem_range.2 hi, hreport⟩)
      simp [hnot]
    · have hnot : requestId ∉ sending := fun hsend => hmem ((hsending requestId).1 hsend).1
      simp [hnot]

lemma run_requestInv (hall : ∀ requestId, RequestInv n s requestId) {call : MultiCall π}
    (hallowed : s.Allowed n call) (hrun : run n call s = .ok s') (requestId : RequestId) :
    RequestInv n s' requestId := by
  cases call with
  | requestFinished finishedId results => exact RequestInv.requestFinished hall hallowed.1 hrun
  | buildConnectorMeta =>
    cases hrun
    exact (hall requestId).buildConnectorMeta
  | bindConnectorMetadata =>
    cases hflight : s.inFlight with
    | nil =>
      simp only [run, hflight] at hrun
      cases hrun
      exact hall requestId
    | cons metadata inFlight =>
      simp only [run, hflight] at hrun
      cases hrun
      exact (hall requestId).bindConnectorMetadata hflight
  | getFinished reports => exact getFinished_requestInv hall hallowed hrun requestId

lemma requestInv_new (requestId : RequestId) : RequestInv n new requestId := by
  have hzero : new.waiting n requestId = 0 := by simp [waiting, new]
  have hsavers : new.savers n requestId = 0 := by simp [savers, new]
  refine ⟨.inl ⟨⟨rfl, fun _ hmem => nomatch hmem⟩, ?_⟩, ?_, fun _ _ _ => rfl, fun _ _ hrep => nomatch hrep⟩
  · rw [hzero]
    rfl
  · rw [hsavers]
    rfl

lemma RequestInv.sound (hall : ∀ requestId, RequestInv n s requestId) : Sound n s := by
  refine ⟨fun requestId => (hall requestId).delivered_eq, ?_⟩
  intro requestId hzero
  rcases (hall requestId).place with ⟨harrived, hworker⟩ | ⟨-, hlt, hwaiting, -⟩
  · rw [hzero] at hworker
    exact ⟨harrived, hworker⟩
  · omega

/-- In every run in which the count of the children that save a request reaches the worker before any report
of it, every request is returned once, with the last report, and `get_finished` does not fail. -/
theorem delivered_of_reaches (h : Reaches (run (π := π) n) (Allowed n) new s) :
    Sound n s ∧ ∀ reports, s.Allowed n (.getFinished reports : MultiCall π) →
      ∃ s', run n (.getFinished reports : MultiCall π) s = .ok s' := by
  have hall : ∀ requestId, RequestInv n s requestId :=
    h.invariant (P := fun s => ∀ requestId, RequestInv n s requestId) requestInv_new
      fun _ _ _ hall hallowed hrun => run_requestInv hall hallowed hrun
  refine ⟨RequestInv.sound hall, ?_⟩
  intro reports hallowed
  obtain ⟨saves, sending, recving, hget, -, -⟩ := getFinished_spec hall hallowed
  exact ⟨_, by simp only [run, hget]; rfl⟩

/-! ## Two children that save a request -/

/-- A report of request 5 by one child. -/
def reportOf (child : ℕ) : MultiCall Unit :=
  .getFinished fun i => (if i = child then [5] else [], [])

section Check

variable (n : ℕ)

def checkPossible (s : Sides) : MultiCall π → Bool
  | .requestFinished requestId _ => !s.finished requestId
  | .getFinished reports => (List.range n).all fun i => decide ((reports i).1.Nodup) &&
      (reports i).1.all fun requestId => s.saves requestId i && !s.reported requestId i
  | .buildConnectorMeta | .bindConnectorMetadata => true

/-- Every report comes after the count. -/
def checkAllowed (s : Sides) (call : MultiCall π) : Bool :=
  s.checkPossible n call &&
    match call with
    | .getFinished reports => (List.range n).all fun i => (reports i).1.all fun requestId =>
      (s.schedulerSaves requestId).isNone && s.inFlight.all fun metadata => (metadata requestId).isNone
    | _ => true

variable {n}

lemma possible_of_check (s : Sides) (call : MultiCall π) (h : s.checkPossible n call = true) :
    s.Possible n call := by
  cases call with
  | requestFinished requestId results => simpa [checkPossible, Possible] using h
  | buildConnectorMeta | bindConnectorMetadata => trivial
  | getFinished reports =>
    simp only [checkPossible, all_eq_true, mem_range, Bool.and_eq_true, decide_eq_true_eq,
      Bool.not_eq_true'] at h
    exact h

lemma allowed_of_check (s : Sides) (call : MultiCall π) (h : s.checkAllowed n call = true) : s.Allowed n call := by
  obtain ⟨hpossible, harrived⟩ := Bool.and_eq_true_iff.1 h
  refine ⟨possible_of_check s call hpossible, ?_⟩
  cases call with
  | requestFinished | buildConnectorMeta | bindConnectorMetadata => trivial
  | getFinished reports =>
    simp only [all_eq_true, mem_range, Bool.and_eq_true, Option.isNone_iff_eq_none] at harrived
    intro i hi requestId hmem _
    exact harrived i hi requestId hmem

end Check

theorem delivered_of_reaches_inTime : ∃ s : Sides, s.delivered 5 = 1 ∧ Sound 2 s := by
  have hrun : (runChecked (run 2) (checkAllowed 2) [.requestFinished 5 fun _ => (true, none), .buildConnectorMeta,
      .bindConnectorMetadata, reportOf 1, reportOf 0] new).map (·.delivered 5) = some 1 := by
    decide +kernel
  obtain ⟨s, hs, hdelivered⟩ := Option.map_eq_some_iff.mp hrun
  exact ⟨s, hdelivered, (delivered_of_reaches (Reaches.of_runChecked allowed_of_check .start hs)).1⟩

/-- The first report of a request comes before its count: it is returned, although the other child has not
reported it. -/
theorem earlyReport_not_sound : ∃ s : Sides, Reaches (run (π := Unit) 2) (Possible 2) new s ∧
    s.delivered 5 = 1 ∧ s.waiting 2 5 = 1 ∧ ¬Sound 2 s := by
  have hrun : (runChecked (run 2) (checkPossible 2) [.requestFinished 5 fun _ => (true, none), reportOf 0]
      new).map (fun s => (s.delivered 5, s.waiting 2 5)) = some (1, 1) := by
    decide +kernel
  obtain ⟨s, hs, heq⟩ := Option.map_eq_some_iff.mp hrun
  obtain ⟨hdelivered, hwaiting⟩ := Prod.mk.inj heq
  refine ⟨s, Reaches.of_runChecked possible_of_check .start hs, hdelivered, hwaiting, ?_⟩
  intro hsound
  have hexpected := hsound.delivered_eq 5
  rw [hdelivered, hwaiting] at hexpected
  simp at hexpected

end Sides

end VllmRuntime.MultiConnector
