import TejkItIzi.Lib.Runs
import TejkItIzi.Utils
/-!
# Pending friend requests

`pending_friend_requests` keeps requests in two hash maps. New ones go to the
front; a cleanup drops the back and moves the front there. Only the back checks
how old a request is.
-/

namespace tejk_it_izi

open ProgLib

/-- `system_clock::time_point`, in the clock's ticks (nanoseconds). -/
abbrev Time := Int

def ticks_per_second : Int := 1000000000

structure SingleFriendRequest where
  request_sender_id : Nat
  recipient_id : Nat
  deriving DecidableEq

abbrev RequestMap := SingleFriendRequest → Option Time

inductive OperationResult where
  | already_in_buffer
  | succesfully_added
  | that_was_a_match
  deriving DecidableEq

structure PendingFriendRequests where
  front : RequestMap
  back : RequestMap

namespace PendingFriendRequests

def empty : PendingFriendRequests := ⟨fun _ => none, fun _ => none⟩

/-- `back.clear(); swap(front, back)`. -/
def periodic_cleanup (p : PendingFriendRequests) : PendingFriendRequests := ⟨fun _ => none, p.front⟩

/-- `duration_cast<seconds>(current_time - since).count() < 20`. -/
def younger_than_20s (since current_time : Time) : Prop := (current_time - since).tdiv ticks_per_second < 20

instance (a b : Time) : Decidable (younger_than_20s a b) := inferInstanceAs (Decidable (_ < _))

def in_front (p : PendingFriendRequests) (r : SingleFriendRequest) : Prop := (p.front r).isSome

instance (p : PendingFriendRequests) (r : SingleFriendRequest) : Decidable (p.in_front r) :=
  inferInstanceAs (Decidable (_ = true))

/-- In the back buffer and young enough. -/
def fresh_in_back (p : PendingFriendRequests) (r : SingleFriendRequest) (current_time : Time) : Prop :=
  ∃ since ∈ p.back r, younger_than_20s since current_time

instance (p : PendingFriendRequests) (r : SingleFriendRequest) (t : Time) : Decidable (p.fresh_in_back r t) :=
  match h : p.back r with
  | none => isFalse (by simp [fresh_in_back, h])
  | some since => decidable_of_iff (younger_than_20s since t) (by simp [fresh_in_back, h])

def erase_front (p : PendingFriendRequests) (r : SingleFriendRequest) : PendingFriendRequests :=
  { p with front := Function.update p.front r none }

def erase_back (p : PendingFriendRequests) (r : SingleFriendRequest) : PendingFriendRequests :=
  { p with back := Function.update p.back r none }

def process_add_friend_request (p : PendingFriendRequests) (sender recipient : Nat) (current_time : Time) :
    OperationResult × PendingFriendRequests :=
  let this_request_reverse : SingleFriendRequest := ⟨recipient, sender⟩
  if p.in_front this_request_reverse then (.that_was_a_match, p.erase_front this_request_reverse)
  else if p.fresh_in_back this_request_reverse current_time then
    (.that_was_a_match, p.erase_back this_request_reverse)
  else
    let this_request : SingleFriendRequest := ⟨sender, recipient⟩
    -- The request is taken out of its buffer here, too.
    if p.in_front this_request then (.already_in_buffer, p.erase_front this_request)
    else if p.fresh_in_back this_request current_time then (.already_in_buffer, p.erase_back this_request)
    else (.succesfully_added, { p with front := Function.update p.front this_request (some current_time) })

/-! ## What a call answers -/

/-- The request would be found by a call at this time. -/
def Held (p : PendingFriendRequests) (r : SingleFriendRequest) (t : Time) : Prop :=
  p.in_front r ∨ p.fresh_in_back r t

instance (p : PendingFriendRequests) (r : SingleFriendRequest) (t : Time) : Decidable (p.Held r t) :=
  inferInstanceAs (Decidable (_ ∨ _))

theorem younger_iff (a b : Int) : younger_than_20s a b ↔ b - a < 20000000000 := by
  unfold younger_than_20s ticks_per_second
  rcases Int.le_total 0 (b - a) with h | h
  · rw [Int.tdiv_eq_ediv_of_nonneg h]; omega
  · have hn : 0 ≤ (-(b - a)).tdiv 1000000000 := Int.tdiv_nonneg (by omega) (by decide)
    rw [Int.neg_tdiv] at hn
    omega

theorem younger_mono {a b c : Int} (h : b ≤ c) (hy : younger_than_20s a c) : younger_than_20s a b := by
  rw [younger_iff] at hy ⊢
  omega

theorem fresh_mono {p : PendingFriendRequests} {r : SingleFriendRequest} {b c : Time} (h : b ≤ c)
    (hf : p.fresh_in_back r c) : p.fresh_in_back r b := by
  obtain ⟨since, hs, hy⟩ := hf
  exact ⟨since, hs, younger_mono h hy⟩

/-- A held request stays held only while time does not pass its limit. -/
theorem held_mono {p : PendingFriendRequests} {r : SingleFriendRequest} {b c : Time} (h : b ≤ c)
    (hf : p.Held r c) : p.Held r b := hf.imp_right (fresh_mono h)

variable {p : PendingFriendRequests} {s r : Nat} {t : Time}

/-- The five ways a call can go: a match in the front or the back, a repetition
in the front or the back, a new request. -/
theorem process_cases (p : PendingFriendRequests) (s r : Nat) (t : Time) :
    -- An answer to the other's request.
    (p.in_front ⟨r, s⟩ ∧ p.process_add_friend_request s r t = (.that_was_a_match, p.erase_front ⟨r, s⟩)) ∨
    (¬ p.in_front ⟨r, s⟩ ∧ p.fresh_in_back ⟨r, s⟩ t ∧
      p.process_add_friend_request s r t = (.that_was_a_match, p.erase_back ⟨r, s⟩)) ∨
    -- A repetition. It is erased like a match.
    (¬ p.Held ⟨r, s⟩ t ∧ p.in_front ⟨s, r⟩ ∧
      p.process_add_friend_request s r t = (.already_in_buffer, p.erase_front ⟨s, r⟩)) ∨
    (¬ p.Held ⟨r, s⟩ t ∧ ¬ p.in_front ⟨s, r⟩ ∧ p.fresh_in_back ⟨s, r⟩ t ∧
      p.process_add_friend_request s r t = (.already_in_buffer, p.erase_back ⟨s, r⟩)) ∨
    -- A new request.
    (¬ p.Held ⟨r, s⟩ t ∧ ¬ p.Held ⟨s, r⟩ t ∧
      p.process_add_friend_request s r t =
        (.succesfully_added, { p with front := Function.update p.front ⟨s, r⟩ (some t) })) := by
  unfold Held process_add_friend_request
  dsimp only
  split_ifs <;> simp_all

theorem match_iff : (p.process_add_friend_request s r t).1 = .that_was_a_match ↔ p.Held ⟨r, s⟩ t := by
  rcases process_cases p s r t with ⟨h, e⟩ | ⟨_, h, e⟩ | ⟨h, _, e⟩ | ⟨h, _, _, e⟩ | ⟨h, _, e⟩ <;> rw [e]
  · exact ⟨fun _ => .inl h, fun _ => rfl⟩
  · exact ⟨fun _ => .inr h, fun _ => rfl⟩
  all_goals exact ⟨fun hm => (by cases hm), fun hh => absurd hh h⟩

theorem already_iff :
    (p.process_add_friend_request s r t).1 = .already_in_buffer ↔ ¬ p.Held ⟨r, s⟩ t ∧ p.Held ⟨s, r⟩ t := by
  rcases process_cases p s r t with ⟨h, e⟩ | ⟨_, h, e⟩ | ⟨h, h', e⟩ | ⟨h, _, h', e⟩ | ⟨h, h', e⟩ <;> rw [e]
  · exact ⟨fun hm => (by cases hm), fun hh => absurd (.inl h) hh.1⟩
  · exact ⟨fun hm => (by cases hm), fun hh => absurd (.inr h) hh.1⟩
  · exact ⟨fun _ => ⟨h, .inl h'⟩, fun _ => rfl⟩
  · exact ⟨fun _ => ⟨h, .inr h'⟩, fun _ => rfl⟩
  · exact ⟨fun hm => (by cases hm), fun hh => absurd hh.2 h'⟩

theorem added_iff :
    (p.process_add_friend_request s r t).1 = .succesfully_added ↔ ¬ p.Held ⟨r, s⟩ t ∧ ¬ p.Held ⟨s, r⟩ t := by
  have h1 := match_iff (p := p) (s := s) (r := r) (t := t)
  have h2 := already_iff (p := p) (s := s) (r := r) (t := t)
  cases h : (p.process_add_friend_request s r t).1 <;> simp_all

/-! ## One live copy of a request -/

/-- A request in the front has no fresh copy in the back. -/
def Layered (p : PendingFriendRequests) (t : Time) : Prop := ∀ r, p.in_front r → ¬ p.fresh_in_back r t

@[simp] theorem in_front_erase_front {p : PendingFriendRequests} {r x : SingleFriendRequest} :
    (p.erase_front r).in_front x ↔ x ≠ r ∧ p.in_front x := by
  by_cases h : x = r <;> simp [in_front, erase_front, h]

@[simp] theorem fresh_erase_front {p : PendingFriendRequests} {r x : SingleFriendRequest} {t : Time} :
    (p.erase_front r).fresh_in_back x t ↔ p.fresh_in_back x t := Iff.rfl

@[simp] theorem in_front_erase_back {p : PendingFriendRequests} {r x : SingleFriendRequest} :
    (p.erase_back r).in_front x ↔ p.in_front x := Iff.rfl

@[simp] theorem fresh_erase_back {p : PendingFriendRequests} {r x : SingleFriendRequest} {t : Time} :
    (p.erase_back r).fresh_in_back x t ↔ x ≠ r ∧ p.fresh_in_back x t := by
  by_cases h : x = r <;> simp [fresh_in_back, erase_back, h]

@[simp] theorem in_front_add {p : PendingFriendRequests} {r x : SingleFriendRequest} {t : Time} :
    in_front { p with front := Function.update p.front r (some t) } x ↔ x = r ∨ p.in_front x := by
  by_cases h : x = r <;> simp [in_front, h]

@[simp] theorem fresh_add {p : PendingFriendRequests} {r x : SingleFriendRequest} {t u : Time} :
    fresh_in_back { p with front := Function.update p.front r (some u) } x t ↔ p.fresh_in_back x t := Iff.rfl

theorem not_held_empty (x : SingleFriendRequest) (t : Time) : ¬ empty.Held x t := by
  simp [Held, in_front, fresh_in_back, empty]

theorem layered_empty (t : Time) : empty.Layered t := by simp [Layered, in_front, empty]

theorem layered_cleanup (p : PendingFriendRequests) (t : Time) : p.periodic_cleanup.Layered t := by
  simp [Layered, in_front, periodic_cleanup]

theorem Layered.mono {u : Time} (h : p.Layered u) (hu : u ≤ t) : p.Layered t :=
  fun x hx hf => h x hx (fresh_mono hu hf)

theorem layered_process (h : p.Layered t) : (p.process_add_friend_request s r t).2.Layered t := by
  rcases process_cases p s r t with ⟨_, e⟩ | ⟨_, _, e⟩ | ⟨_, _, e⟩ | ⟨_, _, _, e⟩ | ⟨_, hn, e⟩ <;> rw [e] <;> intro x
  · simpa using fun _ => h x
  · simpa using fun hx _ => h x hx
  · simpa using fun _ => h x
  · simpa using fun hx _ => h x hx
  · simp only [in_front_add, fresh_add]
    rintro (rfl | hx)
    · exact fun hf => hn (.inr hf)
    · exact h x hx

/-- What a call takes out of the buffers is not held any more. -/
theorem not_held_of_match (h : p.Layered t) (hm : p.Held ⟨r, s⟩ t) :
    ¬ (p.process_add_friend_request s r t).2.Held ⟨r, s⟩ t := by
  rcases process_cases p s r t with ⟨hf, e⟩ | ⟨hf, _, e⟩ | ⟨hn, _, _⟩ | ⟨hn, _, _, _⟩ | ⟨hn, _, _⟩
  · rw [e]; simp [Held, h _ hf]
  · rw [e]; simp [Held, hf]
  all_goals exact absurd hm hn

theorem not_held_of_repeat (h : p.Layered t) (hr : ¬ p.Held ⟨r, s⟩ t) (ho : p.Held ⟨s, r⟩ t) :
    ¬ (p.process_add_friend_request s r t).2.Held ⟨s, r⟩ t := by
  rcases process_cases p s r t with ⟨hf, _⟩ | ⟨_, hf, _⟩ | ⟨_, hf, e⟩ | ⟨_, hf, _, e⟩ | ⟨_, hn, _⟩
  · exact absurd (.inl hf) hr
  · exact absurd (.inr hf) hr
  · rw [e]; simp [Held, h _ hf]
  · rw [e]; simp [Held, hf]
  · exact absurd ho hn

/-- A call makes at most the request it is about held. -/
theorem held_process {x : SingleFriendRequest} (h : (p.process_add_friend_request s r t).2.Held x t) :
    p.Held x t ∨ (x = ⟨s, r⟩ ∧ (p.process_add_friend_request s r t).1 = .succesfully_added) := by
  rcases process_cases p s r t with ⟨_, e⟩ | ⟨_, _, e⟩ | ⟨_, _, e⟩ | ⟨_, _, _, e⟩ | ⟨_, _, e⟩ <;> rw [e] at h ⊢
  · exact .inl (by simp only [Held, in_front_erase_front, fresh_erase_front] at h ⊢; tauto)
  · exact .inl (by simp only [Held, in_front_erase_back, fresh_erase_back] at h ⊢; tauto)
  · exact .inl (by simp only [Held, in_front_erase_front, fresh_erase_front] at h ⊢; tauto)
  · exact .inl (by simp only [Held, in_front_erase_back, fresh_erase_back] at h ⊢; tauto)
  · simp only [Held, in_front_add, fresh_add] at h ⊢
    tauto

theorem held_of_not_added {x : SingleFriendRequest}
    (hr : (p.process_add_friend_request s r t).1 ≠ .succesfully_added)
    (h : (p.process_add_friend_request s r t).2.Held x t) : p.Held x t := by
  rcases held_process h with h | ⟨_, hadd⟩
  · exact h
  · exact absurd hadd hr

/-- A cleanup keeps at most what was in the front. -/
theorem held_cleanup {x : SingleFriendRequest} (h : p.periodic_cleanup.Held x t) : p.Held x t := by
  rcases h with hf | ⟨since, hs, _⟩
  · simp [in_front, periodic_cleanup] at hf
  · exact .inl (Option.isSome_of_mem hs)

end PendingFriendRequests

/-! ## The buffers over time -/

/-- The buffers with the latest clock reading and the time of the last cleanup
(of the construction, before the first). -/
structure PendingState where
  requests : PendingFriendRequests
  now : Time
  last_cleanup : Time

inductive PendingEvent where
  | request (sender recipient : Nat) (current_time : Time)
  | cleanup (current_time : Time)

/-- The two users a call is about, in either order. -/
def PendingEvent.concerns (s r : Nat) : PendingEvent → Prop
  | .request a b _ => (a = s ∧ b = r) ∨ (a = r ∧ b = s)
  | .cleanup _ => False

/-- Clock readings do not decrease; the cleanup timer never fires early. -/
def pendingMachine : Machine PendingState PendingEvent where
  init σ := σ.requests = .empty ∧ σ.now = σ.last_cleanup
  step σ e σ' := match e with
    | .request s r t =>
      σ.now ≤ t ∧ σ' = ⟨(σ.requests.process_add_friend_request s r t).2, t, σ.last_cleanup⟩
    | .cleanup t =>
      σ.now ≤ t ∧ σ.last_cleanup + 20 * ticks_per_second ≤ t ∧ σ' = ⟨σ.requests.periodic_cleanup, t, t⟩

theorem reachable_layered {σ : PendingState} (h : pendingMachine.Reachable σ) : σ.requests.Layered σ.now := by
  refine h.keeps (I := fun σ => σ.requests.Layered σ.now) ?_ ?_
  · rintro σ ⟨h0, -⟩
    rw [h0]
    exact PendingFriendRequests.layered_empty _
  · rintro σ e σ' hi hs
    cases e with
    | request s r t =>
      obtain ⟨ht, rfl⟩ := hs
      exact PendingFriendRequests.layered_process (hi.mono ht)
    | cleanup t =>
      obtain ⟨_, _, rfl⟩ := hs
      exact PendingFriendRequests.layered_cleanup _ _

/-! ## A repeated request -/

/-- When the request still held was made. -/
def PendingFriendRequests.made_at (p : PendingFriendRequests) (r : SingleFriendRequest) : Option Time :=
  match p.front r with
  | some t => some t
  | none => p.back r

/-- If the call by `s` for `r` at `t` answers `already_in_buffer`, the request it
speaks of is still held; an answer by `r` less than 20 seconds after that
request, with nothing but calls for other pairs and cleanups in between, is a
match. -/
def KeepsFirstRequest (σ : PendingState) (s r : Nat) (t : Time) : Prop :=
  (σ.requests.process_add_friend_request s r t).1 = .already_in_buffer →
    (σ.requests.process_add_friend_request s r t).2.Held ⟨s, r⟩ t ∧
    ∀ t0 ∈ σ.requests.made_at ⟨s, r⟩, ∀ σ1 tr σ2 t2, pendingMachine.step σ (.request s r t) σ1 →
      pendingMachine.Run σ1 tr σ2 → (∀ x ∈ tr, ¬ x.event.concerns s r) → σ2.now ≤ t2 →
      PendingFriendRequests.younger_than_20s t0 t2 → (σ2.requests.process_add_friend_request r s t2).1 = .that_was_a_match

namespace PendingFriendRequests

/-- A call about other users does not make a request held. -/
theorem not_held_other {p : PendingFriendRequests} {s r a b : Nat} {t : Time} (h : ¬ p.Held ⟨s, r⟩ t)
    (hc : ¬ (PendingEvent.request a b t).concerns s r) : ¬ (p.process_add_friend_request a b t).2.Held ⟨s, r⟩ t := by
  intro hheld
  rcases held_process hheld with hbefore | ⟨heq, _⟩
  · exact h hbefore
  · cases heq
    exact hc (.inl ⟨rfl, rfl⟩)

end PendingFriendRequests

/-- Calls about other users and cleanups do not make a request held. -/
theorem not_held_run {σ σ' : PendingState} {tr : List (Taken PendingState PendingEvent)} {s r : Nat}
    (h : pendingMachine.Run σ tr σ') (hc : ∀ x ∈ tr, ¬ x.event.concerns s r)
    (h0 : ¬ σ.requests.Held ⟨s, r⟩ σ.now) : ¬ σ'.requests.Held ⟨s, r⟩ σ'.now := by
  refine h.keeps (I := fun σ => ¬ σ.requests.Held ⟨s, r⟩ σ.now) (C := fun _ e => ¬ e.concerns s r) ?_ hc h0
  rintro σ e σ' hi hce hs
  cases e with
  | request a b t =>
    obtain ⟨ht, rfl⟩ := hs
    exact PendingFriendRequests.not_held_other (fun hh => hi (PendingFriendRequests.held_mono ht hh)) hce
  | cleanup t =>
    obtain ⟨ht, _, rfl⟩ := hs
    exact fun hf => hi (PendingFriendRequests.held_mono ht (PendingFriendRequests.held_cleanup hf))

/-- The first request survives exactly when the call does not repeat it: no
request of `s` to `r` is held at that time, or one of `r` to `s` is and the call
is a match. A repetition removes the request it reports as still waiting, and
no later answer by `r` finds it. -/
theorem repeated_request_kept_iff {σ : PendingState} (hσ : pendingMachine.Reachable σ) (s r : Nat) {t : Time}
    (ht : σ.now ≤ t) :
    (KeepsFirstRequest σ s r t ↔ σ.requests.Held ⟨r, s⟩ t ∨ ¬ σ.requests.Held ⟨s, r⟩ t) ∧
    (¬ σ.requests.Held ⟨r, s⟩ t → σ.requests.Held ⟨s, r⟩ t →
      ∀ σ1 tr σ2 t2, pendingMachine.step σ (.request s r t) σ1 → pendingMachine.Run σ1 tr σ2 →
        (∀ x ∈ tr, ¬ x.event.concerns s r) → σ2.now ≤ t2 →
        (σ2.requests.process_add_friend_request r s t2).1 ≠ .that_was_a_match) := by
  have hl := (reachable_layered hσ).mono ht
  refine ⟨⟨?_, ?_⟩, ?_⟩
  · intro hk
    by_contra hn
    simp only [not_or, not_not] at hn
    have ha := PendingFriendRequests.already_iff.2 hn
    exact PendingFriendRequests.not_held_of_repeat hl hn.1 hn.2 (hk ha).1
  · rintro hc ha
    obtain ⟨h1, h2⟩ := PendingFriendRequests.already_iff.1 ha
    rcases hc with hc | hc
    · exact absurd hc h1
    · exact absurd h2 hc
  · rintro h1 h2 σ1 tr σ2 t2 ⟨_, rfl⟩ hr hc ht2 hm
    have hn := not_held_run hr hc (PendingFriendRequests.not_held_of_repeat hl h1 h2)
    exact hn (PendingFriendRequests.held_mono ht2 (PendingFriendRequests.match_iff.1 hm))

/-- Nothing requested yet. -/
def pending_at_start : PendingState := ⟨.empty, 0, 0⟩

theorem pending_at_start_reachable : pendingMachine.Reachable pending_at_start := .init ⟨rfl, rfl⟩

/-- 1 asks 2 at 0 s. -/
def asked_at_start : PendingState := ⟨(PendingFriendRequests.empty.process_add_friend_request 1 2 0).2, 0, 0⟩

theorem asked_at_start_reachable : pendingMachine.Reachable asked_at_start :=
  pending_at_start_reachable.step (e := .request 1 2 0) ⟨le_refl _, rfl⟩

/-- A cleanup at 20 s moves the request to the back. -/
def asked_and_moved : PendingState :=
  ⟨asked_at_start.requests.periodic_cleanup, 20 * ticks_per_second, 20 * ticks_per_second⟩

theorem asked_and_moved_reachable : pendingMachine.Reachable asked_and_moved :=
  asked_at_start_reachable.step (e := .cleanup (20 * ticks_per_second)) ⟨by decide, by decide, rfl⟩

/-- It has expired when 1 asks again at 21 s, so this is a new request, which is kept;
and a call of 2 at 1 s answers it. -/
theorem expired_request_renewed :
    KeepsFirstRequest asked_and_moved 1 2 (21 * ticks_per_second) ∧
      KeepsFirstRequest asked_at_start 2 1 ticks_per_second :=
  ⟨(repeated_request_kept_iff asked_and_moved_reachable 1 2 (by decide)).1.2 (.inr (by decide)),
    (repeated_request_kept_iff asked_at_start_reachable 2 1 (by decide)).1.2 (.inl (by decide))⟩

/-- 1 asks 2 again at 1 s; that drops the request. -/
theorem second_request_cancels_first :
    ∃ σ t, pendingMachine.Reachable σ ∧ σ.now ≤ t ∧ ¬ KeepsFirstRequest σ 1 2 t := by
  refine ⟨asked_at_start, ticks_per_second, asked_at_start_reachable, by decide, fun hk => ?_⟩
  exact absurd (hk (by decide)).1 (by decide)

end tejk_it_izi
