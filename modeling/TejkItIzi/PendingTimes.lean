import TejkItIzi.PendingRequests
/-!
# How long a request counts

A request is to count for 20 seconds. It does not get lost before: the cleanup
that drops it comes at least 20 seconds after the one that moved it to the back.
It may count for longer: nothing but the next cleanup ends its time in the front.
-/

namespace tejk_it_izi

open ProgLib

/-! ## No request is lost -/

section live

variable {s r : Nat} {t : Time}

/-- A call moves nothing but the requests of its two users. -/
theorem process_frame {p : PendingFriendRequests} {a b : Nat} {u : Time}
    (hc : ¬ (PendingEvent.request a b u).concerns s r) :
    (p.process_add_friend_request a b u).2.front ⟨s, r⟩ = p.front ⟨s, r⟩ ∧
      (p.process_add_friend_request a b u).2.back ⟨s, r⟩ = p.back ⟨s, r⟩ := by
  have h1 : (⟨s, r⟩ : SingleFriendRequest) ≠ ⟨a, b⟩ := by
    rintro ⟨⟩
    exact hc (.inl ⟨rfl, rfl⟩)
  have h2 : (⟨s, r⟩ : SingleFriendRequest) ≠ ⟨b, a⟩ := by
    rintro ⟨⟩
    exact hc (.inr ⟨rfl, rfl⟩)
  rcases PendingFriendRequests.process_cases p a b u with ⟨_, e⟩ | ⟨_, _, e⟩ | ⟨_, _, e⟩ | ⟨_, _, _, e⟩ | ⟨_, _, e⟩ <;>
    rw [e] <;> simp [PendingFriendRequests.erase_front, PendingFriendRequests.erase_back, h1, h2]

/-- Where the request made at `t` is: in the front; in the back, since a cleanup
that came after it; or its time is over. -/
structure PendingState.Keeps (σ : PendingState) (x : SingleFriendRequest) (t : Time) : Prop where
  made : t ≤ σ.now
  place : σ.requests.front x = some t ∨ (σ.requests.back x = some t ∧ t ≤ σ.last_cleanup) ∨
    t + 20 * ticks_per_second ≤ σ.now

theorem keeps_step {σ σ' : PendingState} {e : PendingEvent} (h : σ.Keeps ⟨s, r⟩ t) (hc : ¬ e.concerns s r)
    (hs : pendingMachine.step σ e σ') : σ'.Keeps ⟨s, r⟩ t := by
  have hmade := h.made
  cases e with
  | request a b u =>
    obtain ⟨hu, rfl⟩ := hs
    obtain ⟨hfront, hback⟩ := process_frame (p := σ.requests) hc
    refine ⟨hmade.trans hu, ?_⟩
    rw [hfront, hback]
    rcases h.place with hf | hb | hover
    · exact .inl hf
    · exact .inr (.inl hb)
    · exact .inr (.inr (hover.trans hu))
  | cleanup u =>
    obtain ⟨hu, hlate, rfl⟩ := hs
    refine ⟨hmade.trans hu, ?_⟩
    rcases h.place with hf | ⟨_, hb⟩ | hover
    · exact .inr (.inl ⟨hf, hmade.trans hu⟩)
    · -- Two cleanups after the request.
      exact .inr (.inr ((Int.add_le_add_right hb _).trans hlate))
    · exact .inr (.inr (hover.trans hu))

theorem keeps_run {σ σ' : PendingState} {tr : List (Taken PendingState PendingEvent)} (h : pendingMachine.Run σ tr σ')
    (hc : ∀ x ∈ tr, ¬ x.event.concerns s r) (h0 : σ.Keeps ⟨s, r⟩ t) : σ'.Keeps ⟨s, r⟩ t :=
  h.keeps (I := fun σ => σ.Keeps ⟨s, r⟩ t) (C := fun _ e => ¬ e.concerns s r)
    (fun _ _ _ hi hce hs => keeps_step hi hce hs) hc h0

theorem keeps_added {σ σ' : PendingState} (hadd : (σ.requests.process_add_friend_request s r t).1 = .succesfully_added)
    (hs : pendingMachine.step σ (.request s r t) σ') : σ'.Keeps ⟨s, r⟩ t := by
  obtain ⟨_, rfl⟩ := hs
  refine ⟨le_refl t, .inl ?_⟩
  rcases PendingFriendRequests.process_cases σ.requests s r t with
    ⟨_, e⟩ | ⟨_, _, e⟩ | ⟨_, _, e⟩ | ⟨_, _, _, e⟩ | ⟨_, _, e⟩ <;> rw [e] at hadd
  · cases hadd
  · cases hadd
  · cases hadd
  · cases hadd
  · rw [e]
    exact Function.update_self ..

theorem keeps_held {σ : PendingState} {t' : Time} (h : σ.Keeps ⟨s, r⟩ t) (hnow : σ.now ≤ t')
    (hlive : t' - t < 20 * ticks_per_second) : σ.requests.Held ⟨s, r⟩ t' := by
  rcases h.place with hf | ⟨hb, _⟩ | hover
  · exact .inl (by rw [PendingFriendRequests.in_front, hf]; rfl)
  · refine .inr ⟨t, hb, ?_⟩
    rw [PendingFriendRequests.younger_iff]
    simpa [ticks_per_second] using hlive
  · exact absurd hlive (Int.not_lt.2 (Int.le_sub_left_of_add_le (hover.trans hnow)))

/-- A recorded request is answered by a match for 20 seconds, through any cleanups
and any calls about other pairs, from whatever was in the buffers. -/
theorem live_request_matches {σ σ1 σ2 : PendingState} {tr : List (Taken PendingState PendingEvent)} {t' : Time}
    (hadd : (σ.requests.process_add_friend_request s r t).1 = .succesfully_added)
    (hmade : pendingMachine.step σ (.request s r t) σ1) (hrun : pendingMachine.Run σ1 tr σ2)
    (hother : ∀ x ∈ tr, ¬ x.event.concerns s r) (hnow : σ2.now ≤ t') (hlive : t' - t < 20 * ticks_per_second) :
    (σ2.requests.process_add_friend_request r s t').1 = .that_was_a_match :=
  PendingFriendRequests.match_iff.2 (keeps_held (keeps_run hrun hother (keeps_added hadd hmade)) hnow hlive)

end live

/-- 1 has asked 2 after 5 seconds. -/
def asked : PendingState :=
  ⟨(PendingFriendRequests.empty.process_add_friend_request 1 2 (5 * ticks_per_second)).2, 5 * ticks_per_second, 0⟩

theorem asked_step : pendingMachine.step pending_at_start (.request 1 2 (5 * ticks_per_second)) asked := ⟨by decide, rfl⟩

/-- A cleanup has moved the request to the back. -/
def asked_before_cleanup : PendingState :=
  ⟨asked.requests.periodic_cleanup, 20 * ticks_per_second, 20 * ticks_per_second⟩

theorem live_request_matches_asked :
    (asked_before_cleanup.requests.process_add_friend_request 2 1 (24 * ticks_per_second)).1 = .that_was_a_match := by
  have hcleanup : pendingMachine.step asked (.cleanup (20 * ticks_per_second)) asked_before_cleanup :=
    ⟨by decide, by decide, rfl⟩
  exact live_request_matches (by decide) asked_step (Machine.Run.nil.snoc hcleanup) (by simp [PendingEvent.concerns])
    (by decide) (by decide)

/-! ## Some requests live on -/

/-- The call of a step that recorded this request at this time. -/
def Taken.Records (y : Taken PendingState PendingEvent) (x : SingleFriendRequest) (t0 : Time) : Prop :=
  y.event = .request x.request_sender_id x.recipient_id t0 ∧
    (y.pre.requests.process_add_friend_request x.request_sender_id x.recipient_id t0).1 = .succesfully_added

/-- A step of the run recorded it. -/
def Recorded (tr : List (Taken PendingState PendingEvent)) (x : SingleFriendRequest) (t0 : Time) : Prop :=
  ∃ y ∈ tr, Taken.Records y x t0

/-- A call for a match needs a request of the other less than 20 seconds old, one
for a repetition its own. -/
def NothingExpiredCounts (tr : List (Taken PendingState PendingEvent)) (p : PendingFriendRequests) (s r : Nat) (t : Time) :
    Prop :=
  ((p.process_add_friend_request s r t).1 = .that_was_a_match →
    ∃ t0, Recorded tr ⟨r, s⟩ t0 ∧ t - t0 < 20 * ticks_per_second) ∧
  ((p.process_add_friend_request s r t).1 = .already_in_buffer →
    ∃ t0, Recorded tr ⟨s, r⟩ t0 ∧ t - t0 < 20 * ticks_per_second)

/-- What the call finds in the front is less than 20 seconds old. -/
def FrontYoung (p : PendingFriendRequests) (s r : Nat) (t : Time) : Prop :=
  (∀ t0 ∈ p.front ⟨r, s⟩, t - t0 < 20 * ticks_per_second) ∧
  (¬ p.Held ⟨r, s⟩ t → ∀ t0 ∈ p.front ⟨s, r⟩, t - t0 < 20 * ticks_per_second)

/-- What is in the buffers has been recorded; what is in the front, last. -/
structure PendingState.Recalls (σ : PendingState) (tr : List (Taken PendingState PendingEvent)) : Prop where
  front : ∀ x t0, σ.requests.front x = some t0 → Recorded tr x t0
  back : ∀ x t0, σ.requests.back x = some t0 → Recorded tr x t0
  last : ∀ x t0 t1, σ.requests.front x = some t0 → Recorded tr x t1 → t1 ≤ t0
  past : ∀ x t1, Recorded tr x t1 → t1 ≤ σ.now

section expired

variable {σ σ' : PendingState} {tr : List (Taken PendingState PendingEvent)} {x : SingleFriendRequest} {t0 : Time}

theorem recorded_snoc {y : Taken PendingState PendingEvent} :
    Recorded (tr ++ [y]) x t0 ↔ Recorded tr x t0 ∨ Taken.Records y x t0 := by
  simp [Recorded, or_and_right, exists_or]

/-- The call of a step records the request it has added. -/
theorem records_request {s r : Nat} {t : Time} :
    Taken.Records ⟨σ, .request s r t, σ'⟩ x t0 ↔
      (σ.requests.process_add_friend_request s r t).1 = .succesfully_added ∧ x = ⟨s, r⟩ ∧ t0 = t := by
  constructor
  · rintro ⟨hev, hadd⟩
    cases hev
    exact ⟨hadd, rfl, rfl⟩
  · rintro ⟨hadd, rfl, rfl⟩
    exact ⟨rfl, hadd⟩

theorem of_update_none {m : RequestMap} {y : SingleFriendRequest} (hx : Function.update m y none x = some t0) :
    m x = some t0 := by
  rw [Function.update_apply] at hx
  split at hx
  · cases hx
  · exact hx

/-- What a call leaves in the front was there, or is what it has added. -/
theorem front_after {p : PendingFriendRequests} {s r : Nat} {t : Time}
    (hx : (p.process_add_friend_request s r t).2.front x = some t0) :
    ((p.process_add_friend_request s r t).1 = .succesfully_added ∧ x = ⟨s, r⟩ ∧ t0 = t) ∨
      ((p.process_add_friend_request s r t).1 = .succesfully_added → x ≠ ⟨s, r⟩) ∧ p.front x = some t0 := by
  rcases PendingFriendRequests.process_cases p s r t with ⟨_, e⟩ | ⟨_, _, e⟩ | ⟨_, _, e⟩ | ⟨_, _, _, e⟩ | ⟨_, _, e⟩ <;>
    rw [e] at hx ⊢
  · exact .inr ⟨fun hadd => (by cases hadd), of_update_none hx⟩
  · exact .inr ⟨fun hadd => (by cases hadd), hx⟩
  · exact .inr ⟨fun hadd => (by cases hadd), of_update_none hx⟩
  · exact .inr ⟨fun hadd => (by cases hadd), hx⟩
  · simp only [Function.update_apply] at hx
    split at hx
    case isTrue hxs =>
      cases hx
      exact .inl ⟨rfl, hxs, rfl⟩
    case isFalse hxs => exact .inr ⟨fun _ => hxs, hx⟩

/-- A call puts nothing into the back. -/
theorem back_after {p : PendingFriendRequests} {s r : Nat} {t : Time}
    (hx : (p.process_add_friend_request s r t).2.back x = some t0) : p.back x = some t0 := by
  rcases PendingFriendRequests.process_cases p s r t with ⟨_, e⟩ | ⟨_, _, e⟩ | ⟨_, _, e⟩ | ⟨_, _, _, e⟩ | ⟨_, _, e⟩ <;>
    rw [e] at hx
  · exact hx
  · exact of_update_none hx
  · exact hx
  · exact of_update_none hx
  · exact hx

theorem recalls_step {e : PendingEvent} (h : σ.Recalls tr) (hs : pendingMachine.step σ e σ') :
    σ'.Recalls (tr ++ [⟨σ, e, σ'⟩]) := by
  cases e with
  | cleanup t =>
    obtain ⟨ht, _, rfl⟩ := hs
    have hsame {x : SingleFriendRequest} {t0 : Time} {σ' : PendingState} :
        Recorded (tr ++ [⟨σ, .cleanup t, σ'⟩]) x t0 ↔ Recorded tr x t0 := by
      rw [recorded_snoc, or_iff_left]
      rintro ⟨hev, _⟩
      cases hev
    constructor
    · intro x t0 hx
      cases hx
    · intro x t0 hx
      exact hsame.2 (h.front x t0 hx)
    · intro x t0 t1 hx
      cases hx
    · intro x t1 h1
      exact (h.past x t1 (hsame.1 h1)).trans ht
  | request s r t =>
    obtain ⟨ht, rfl⟩ := hs
    constructor
    · intro x t0 hx
      rw [recorded_snoc, records_request]
      rcases front_after hx with hnew | ⟨_, hold⟩
      · exact .inr hnew
      · exact .inl (h.front x t0 hold)
    · intro x t0 hx
      exact recorded_snoc.2 (.inl (h.back x t0 (back_after hx)))
    · -- A new request is recorded at the earliest now, and is the only one in the front.
      intro x t0 t1 hx h1
      rw [recorded_snoc, records_request] at h1
      rcases front_after hx with ⟨_, _, rfl⟩ | ⟨hother, hold⟩
      · rcases h1 with h1 | ⟨_, _, rfl⟩
        · exact (h.past x t1 h1).trans ht
        · exact le_refl _
      · rcases h1 with h1 | ⟨hadd, hxs, _⟩
        · exact h.last x t0 t1 hold h1
        · exact absurd hxs (hother hadd)
    · intro x t1 h1
      rw [recorded_snoc, records_request] at h1
      rcases h1 with h1 | ⟨_, _, rfl⟩
      · exact (h.past x t1 h1).trans ht
      · exact le_refl _

theorem recalls_run {σ0 : PendingState} (h : pendingMachine.Run σ0 tr σ) (h0 : pendingMachine.init σ0) : σ.Recalls tr := by
  induction h with
  | nil =>
    have hnone (x : SingleFriendRequest) (t0 : Time) : ¬ Recorded [] x t0 := by simp [Recorded]
    constructor
    · intro x t0 hx
      rw [h0.1] at hx
      cases hx
    · intro x t0 hx
      rw [h0.1] at hx
      cases hx
    · exact fun x _ t1 _ h1 => absurd h1 (hnone x t1)
    · exact fun x t1 h1 => absurd h1 (hnone x t1)
  | snoc _ hs ih => exact recalls_step ih hs

/-- A held request counts if what is in the front is young enough; and otherwise
does not. -/
theorem held_counts (h : σ.Recalls tr) {t : Time} (hheld : σ.requests.Held x t) :
    (∃ t0, Recorded tr x t0 ∧ t - t0 < 20 * ticks_per_second) ↔
      ∀ t0 ∈ σ.requests.front x, t - t0 < 20 * ticks_per_second := by
  constructor
  · rintro ⟨t1, h1, hlt⟩ t0 h0
    have hle := h.last x t0 t1 h0 h1
    exact lt_of_le_of_lt (Int.sub_le_sub_left hle t) hlt
  · intro hyoung
    cases hfront : σ.requests.front x with
    | some t0 => exact ⟨t0, h.front x t0 hfront, hyoung t0 hfront⟩
    | none =>
      rcases hheld with hin | ⟨t0, h0, hlt⟩
      · rw [PendingFriendRequests.in_front, hfront] at hin
        cases hin
      · refine ⟨t0, h.back x t0 h0, ?_⟩
        rw [PendingFriendRequests.younger_iff] at hlt
        simpa [ticks_per_second] using hlt

/-- The front was emptied at the last cleanup. -/
theorem front_since_cleanup (h : pendingMachine.Reachable σ) (hx : σ.requests.front x = some t0) : σ.last_cleanup ≤ t0 := by
  have hinv : σ.last_cleanup ≤ σ.now ∧ ∀ x t0, σ.requests.front x = some t0 → σ.last_cleanup ≤ t0 := by
    refine h.keeps (I := fun σ => σ.last_cleanup ≤ σ.now ∧ ∀ x t0, σ.requests.front x = some t0 → σ.last_cleanup ≤ t0) ?_ ?_
    · rintro σ ⟨hempty, hnow⟩
      refine ⟨hnow.ge, fun x t0 hx => ?_⟩
      rw [hempty] at hx
      cases hx
    · rintro σ e σ' ⟨hnow, hfront⟩ hs
      cases e with
      | cleanup t =>
        obtain ⟨_, _, rfl⟩ := hs
        exact ⟨le_refl t, fun x t0 hx => by cases hx⟩
      | request s r t =>
        obtain ⟨ht, rfl⟩ := hs
        refine ⟨hnow.trans ht, fun x t0 hx => ?_⟩
        rcases front_after hx with ⟨_, _, rfl⟩ | ⟨_, hold⟩
        · exact hnow.trans ht
        · exact hfront x t0 hold
  exact hinv.2 x t0 hx

/-- A cleanup less than 20 seconds ago leaves nothing old in the front. -/
theorem front_young_of_cleanup (h : pendingMachine.Reachable σ) {t : Time} (ht : t - σ.last_cleanup < 20 * ticks_per_second)
    (s r : Nat) : FrontYoung σ.requests s r t := by
  have hyoung (x : SingleFriendRequest) : ∀ t0 ∈ σ.requests.front x, t - t0 < 20 * ticks_per_second := fun t0 hx =>
    lt_of_le_of_lt (Int.sub_le_sub_left (front_since_cleanup h hx) t) ht
  exact ⟨hyoung _, fun _ => hyoung _⟩

/-- Whether a call answers as if an expired request counted depends only on what
it finds in the front. -/
theorem expired_counts_iff_old_in_front {σ0 : PendingState} (h0 : pendingMachine.init σ0) (h : pendingMachine.Run σ0 tr σ)
    (s r : Nat) (t : Time) : NothingExpiredCounts tr σ.requests s r t ↔ FrontYoung σ.requests s r t := by
  have hrecalls := recalls_run h h0
  have hempty {x : SingleFriendRequest} (hx : ¬ σ.requests.Held x t) :
      ∀ t0 ∈ σ.requests.front x, t - t0 < 20 * ticks_per_second :=
    fun t0 ht0 => absurd (.inl (Option.isSome_of_mem ht0)) hx
  refine and_congr ?_ ?_
  · rw [PendingFriendRequests.match_iff]
    by_cases hheld : σ.requests.Held ⟨r, s⟩ t
    · rw [← held_counts hrecalls hheld]
      exact ⟨fun hm => hm hheld, fun hm _ => hm⟩
    · exact iff_of_true (fun hh => absurd hh hheld) (hempty hheld)
  · rw [PendingFriendRequests.already_iff, and_imp]
    refine imp_congr_right fun _ => ?_
    by_cases hheld : σ.requests.Held ⟨s, r⟩ t
    · rw [← held_counts hrecalls hheld]
      exact ⟨fun ha => ha hheld, fun ha _ => ha⟩
    · exact iff_of_true (fun hh => absurd hh hheld) (hempty hheld)

end expired

theorem expired_counts_iff_old_in_front_asked :
    NothingExpiredCounts [⟨pending_at_start, .request 1 2 (5 * ticks_per_second), asked⟩] asked.requests 2 1
      (15 * ticks_per_second) := by
  have hasked : pendingMachine.Reachable asked := pending_at_start_reachable.step asked_step
  exact (expired_counts_iff_old_in_front ⟨rfl, rfl⟩ (Machine.Run.nil.snoc asked_step) 2 1 _).2
    (front_young_of_cleanup hasked (by decide) 2 1)

/-- The first cleanup is late: 2 asks 1 after 26 seconds, which is a match. -/
theorem expired_request_matches :
    pendingMachine.Run pending_at_start [⟨pending_at_start, .request 1 2 (5 * ticks_per_second), asked⟩] asked ∧
      pendingMachine.init pending_at_start ∧ asked.now ≤ 26 * ticks_per_second ∧
      ¬ NothingExpiredCounts [⟨pending_at_start, .request 1 2 (5 * ticks_per_second), asked⟩] asked.requests 2 1
        (26 * ticks_per_second) := by
  refine ⟨Machine.Run.nil.snoc asked_step, ⟨rfl, rfl⟩, by decide, fun hcounts => ?_⟩
  obtain ⟨t0, ⟨y, hy, hev, _⟩, hlt⟩ := hcounts.1 (by decide)
  obtain rfl := List.mem_singleton.1 hy
  cases hev
  exact absurd hlt (by decide)

end tejk_it_izi
