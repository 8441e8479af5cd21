import TejkItIzi.FriendInvariants
/-!
# The presence view

A client that starts from nothing when its character comes in, and adds and
removes names as the friend notifications say, sees exactly the friends who are
online. The notifications fit the view, with one exception: whoever removes a
friend who is offline is told that the friendship is broken, although the name
was not in his view.
-/

namespace tejk_it_izi

open ProgLib

/-! ## The view of a client -/

/-- What a notification does to the view. -/
def see (view : Finset Bytes) : Packet → Finset Bytes
  | .friend_online_while_you_login n | .friend_login n | .new_friendship n => insert n view
  | .friend_leave n | .broken_friendship n => view.erase n
  | _ => view

/-- It adds a name that is not there, or removes one that is. -/
def Fits (view : Finset Bytes) : Packet → Prop
  | .friend_online_while_you_login n | .friend_login n | .new_friendship n => n ∉ view
  | .friend_leave n | .broken_friendship n => n ∈ view
  | _ => True

/-- Each fits the view its predecessors leave. -/
def AllFit (view : Finset Bytes) : List Packet → Prop
  | [] => True
  | pk :: rest => Fits view pk ∧ AllFit (see view pk) rest

/-- What is sent to `p`, in order. -/
def mail (p : EntityPtr) (sent : List (EntityPtr × Packet)) : List Packet := (sent.filter (·.1 = p)).map (·.2)

/-- A new representative starts from an empty view. -/
def FriendEvent.start (p : EntityPtr) (view : Finset Bytes) : FriendEvent → Finset Bytes
  | .call (.register_me q) => if q = p then ∅ else view
  | _ => view

/-- The view after one more step. -/
def look (p : EntityPtr) (view : Finset Bytes) (x : Taken World FriendEvent) : Finset Bytes :=
  (mail p x.post.notices).foldl see (x.event.start p view)

/-- The view of `p` at the end of a run. -/
def view_of (p : EntityPtr) (tr : List (Taken World FriendEvent)) : Finset Bytes := tr.foldl (look p) ∅

/-- A friend of `p` who is online. -/
def World.friend_online (w : World) (p q : EntityPtr) : Prop := w.online q ∧ q.id ∈ w.db.get_friends_of p.id

/-- The view has the names of `p`'s friends who are online. -/
def Sees (w : World) (p : EntityPtr) (view : Finset Bytes) : Prop := ∀ n, n ∈ view ↔ ∃ q, w.friend_online p q ∧ q.name = n

/-! ## Names -/

/-- The database knows a nickname as that of its character, or not at all. -/
def AgreesWith (naming : Nat → Bytes) (db : Database) : Prop :=
  ∀ n, db.char_name_to_uid n ≠ 0 → naming (db.char_name_to_uid n) = n

/-- `friendMachine` where every character has one name. -/
def namedMachine (naming : Nat → Bytes) : Machine World FriendEvent where
  init w := friendMachine.init w ∧ AgreesWith naming w.db
  step w ev w' := friendMachine.step w ev w' ∧ AgreesWith naming w'.db ∧
    ∀ p, ev = .call (.register_me p) → p.name = naming p.id

/-- Whoever is online goes by his character's name. -/
def Named (naming : Nat → Bytes) (w : World) : Prop := ∀ q, w.online q → q.name = naming q.id

/-! ## Mail -/

section mail

variable {p q : EntityPtr} {view : Finset Bytes}

@[simp] theorem mail_nil : mail p [] = [] := rfl

@[simp] theorem mail_cons_self (pk : Packet) (ns : List (EntityPtr × Packet)) :
    mail p ((p, pk) :: ns) = pk :: mail p ns := by
  simp [mail]

theorem mail_cons_ne (h : q ≠ p) (pk : Packet) (ns : List (EntityPtr × Packet)) :
    mail p ((q, pk) :: ns) = mail p ns := by
  simp [mail, h]

theorem mail_flatMap {α : Type} (l : List α) (f : α → List (EntityPtr × Packet)) :
    mail p (l.flatMap f) = l.flatMap fun a => mail p (f a) := by
  simp [mail, List.filter_flatMap, List.map_flatMap]

variable {w : World}

/-- At most one packet, to `p` if his id is among `ids`. -/
theorem mail_to_each (hs : SamePlayers w.registry w.friends) (hp : w.online p) (ids : USet Nat) (pk : Packet) :
    mail p (ids.elems.flatMap fun i => match w.friends.friendlist_of_id i with
      | some l => [(l.backend, pk)]
      | none => []) = if p.id ∈ ids then [pk] else [] := by
  have hother (i : Nat) (hi : i ≠ p.id) : mail p (match w.friends.friendlist_of_id i with
      | some l => [(l.backend, pk)]
      | none => []) = [] := by
    cases hl : w.friends.friendlist_of_id i with
    | none => rfl
    | some l =>
      have hne : l.backend ≠ p := by
        rintro rfl
        exact hi (hs.by_id i _ (hs.list_online i l hl)).1.symm
      simp [mail_cons_ne hne]
  rw [mail_flatMap]
  split
  case isTrue hmem =>
    obtain ⟨l, hl⟩ := Option.isSome_iff_exists.1 (hs.online_list p.id p hp)
    have hb : l.backend = p := Option.some.inj ((hs.list_online p.id l hl).symm.trans hp)
    rw [flatMap_eq_of_single ids.nodup (USet.mem_elems.2 hmem) fun i _ hi => hother i hi]
    simp [hl, hb]
  case isFalse hmem =>
    refine List.flatMap_eq_nil_iff.2 fun i hi => hother i ?_
    rintro rfl
    exact hmem hi

theorem mail_goodbyes (hs : SamePlayers w.registry w.friends) (hp : w.online p) (ids : USet Nat) :
    mail p (w.goodbyes q ids) = if p.id ∈ ids then [.friend_leave q.name] else [] :=
  mail_to_each hs hp ids (.friend_leave q.name)

/-- The friends who are online hear of a newcomer once each. -/
theorem mail_greetings_friend (hs : SamePlayers w.registry w.friends) (hp : w.online p) (hq : q ≠ p) (ids : USet Nat) :
    mail p (w.greetings q ids) = if p.id ∈ ids then [.friend_login q.name] else [] := by
  rw [← mail_to_each hs hp ids (.friend_login q.name), World.greetings, mail_flatMap, mail_flatMap]
  refine List.flatMap_congr fun i _ => ?_
  unfold World.greeting
  cases hl : w.friends.friendlist_of_id i with
  | none => rfl
  | some l => simp [hs.list_online i l hl, mail_cons_ne hq]

/-- The newcomer hears of each friend who is online. -/
theorem mail_greetings_self (hs : SamePlayers w.registry w.friends) (hq : ¬ w.online q) (ids : USet Nat) :
    mail q (w.greetings q ids) = ids.elems.flatMap fun i => match w.registry.id_to_character i with
      | some f => [.friend_online_while_you_login f.name]
      | none => [] := by
  rw [World.greetings, mail_flatMap]
  refine List.flatMap_congr fun i _ => ?_
  unfold World.greeting
  cases hl : w.friends.friendlist_of_id i with
  | none =>
    cases hr : w.registry.id_to_character i with
    | none => rfl
    | some f =>
      have := hs.online_list i f hr
      rw [hl] at this
      cases this
  | some l =>
    have hon := hs.list_online i l hl
    have hne : l.backend ≠ q := by
      rintro rfl
      exact hq (by rw [World.online, (hs.by_id i _ hon).1]; exact hon)
    simp [hon, mail_cons_ne hne]

/-- Names met one after another, each for the first time. -/
theorem see_greetings (hs : SamePlayers w.registry w.friends) {l : List Nat} (hl : l.Nodup)
    (hv : ∀ i ∈ l, ∀ f, w.registry.id_to_character i = some f → f.name ∉ view) :
    let pks := l.flatMap fun i => match w.registry.id_to_character i with
      | some f => [Packet.friend_online_while_you_login f.name]
      | none => []
    AllFit view pks ∧ ∀ n, n ∈ pks.foldl see view ↔
      n ∈ view ∨ ∃ i ∈ l, ∃ f, w.registry.id_to_character i = some f ∧ f.name = n := by
  induction l generalizing view with
  | nil => simp [AllFit]
  | cons i l ih =>
    obtain ⟨hi, hl⟩ := List.nodup_cons.1 hl
    cases hr : w.registry.id_to_character i with
    | none =>
      have := ih hl fun j hj => hv j (List.mem_cons_of_mem _ hj)
      simpa [hr] using this
    | some f =>
      have hfresh : f.name ∉ view := hv i List.mem_cons_self f hr
      have hrest : ∀ j ∈ l, ∀ f', w.registry.id_to_character j = some f' → f'.name ∉ insert f.name view := by
        intro j hj f' hf' hmem
        rcases Finset.mem_insert.1 hmem with he | hmem
        · -- Two players online do not share a name.
          have h1 := (hs.by_id i f hr).2
          have h2 := (hs.by_id j f' hf').2
          rw [he, h1] at h2
          obtain rfl := Option.some.inj h2
          exact hi ((hs.by_id i f hr).1.symm.trans (hs.by_id j f hf').1 ▸ hj)
        · exact hv j (List.mem_cons_of_mem _ hj) f' hf' hmem
      obtain ⟨h1, h2⟩ := ih hl hrest
      dsimp only at h1 h2 ⊢
      simp only [List.flatMap_cons, hr, List.singleton_append, List.foldl_cons, see]
      refine ⟨⟨hfresh, h1⟩, fun n => ?_⟩
      rw [h2]
      simp only [Finset.mem_insert, List.mem_cons, exists_eq_or_imp, hr, Option.some.injEq, exists_eq_left']
      constructor
      · rintro ((rfl | h) | h)
        · exact .inr (.inl rfl)
        · exact .inl h
        · exact .inr (.inr h)
      · rintro (h | rfl | h)
        · exact .inl (.inr h)
        · exact .inl (.inl rfl)
        · exact .inr h

end mail

/-! ## One step -/

section step

variable {w w' : World} {p q a b : EntityPtr} {view : Finset Bytes}

theorem SamePlayers.name_unique (hs : SamePlayers w.registry w.friends) (ha : w.online a) (hb : w.online b)
    (h : a.name = b.name) : a = b := by
  have h1 := (hs.by_id _ _ ha).2
  rw [h, (hs.by_id _ _ hb).2] at h1
  exact (Option.some.inj h1).symm

theorem Sees.same (h : Sees w p view) (hk : ∀ q, w'.friend_online p q ↔ w.friend_online p q) : Sees w' p view := by
  intro n
  simp only [hk]
  exact h n

theorem Sees.insert (h : Sees w p view) (hk : ∀ x, w'.friend_online p x ↔ w.friend_online p x ∨ x = q) :
    Sees w' p (insert q.name view) := by
  intro n
  simp only [Finset.mem_insert, h n, hk]
  constructor
  · rintro (rfl | ⟨x, hx, hn⟩)
    · exact ⟨q, .inr rfl, rfl⟩
    · exact ⟨x, .inl hx, hn⟩
  · rintro ⟨x, hx | rfl, hn⟩
    · exact .inr ⟨x, hx, hn⟩
    · exact .inl hn.symm

theorem Sees.erase (hs : SamePlayers w.registry w.friends) (h : Sees w p view) (hq : w.online q)
    (hk : ∀ x, w'.friend_online p x ↔ w.friend_online p x ∧ x ≠ q) : Sees w' p (view.erase q.name) := by
  intro n
  simp only [Finset.mem_erase, h n, hk]
  constructor
  · rintro ⟨hne, x, hx, rfl⟩
    exact ⟨x, ⟨hx, fun he => hne (he ▸ rfl)⟩, rfl⟩
  · rintro ⟨x, ⟨hx, hne⟩, rfl⟩
    exact ⟨fun he => hne (hs.name_unique hx.1 hq he), x, hx, rfl⟩

theorem Sees.fresh (hs : SamePlayers w.registry w.friends) (h : Sees w p view) (hq : w.online q)
    (hn : ¬ w.friend_online p q) : q.name ∉ view := by
  rw [h]
  rintro ⟨x, hx, he⟩
  exact hn (hs.name_unique hx.1 hq he ▸ hx)

theorem online_add (hp : w.registry.id_to_character p.id = none) (x : EntityPtr) :
    (w.registry.add p).id_to_character x.id = some x ↔ w.online x ∨ x = p := by
  by_cases hx : x.id = p.id
  · simp only [WorldRegistrar.add, hx, Function.update_self, Option.some.injEq, World.online, hp]
    constructor
    · rintro rfl; exact .inr rfl
    · rintro (h | rfl)
      · cases h
      · rfl
  · simp only [WorldRegistrar.add, Function.update_of_ne hx, World.online]
    constructor
    · exact .inl
    · rintro (h | rfl)
      · exact h
      · exact absurd rfl hx

theorem online_remove (hp : w.online p) (x : EntityPtr) :
    (w.registry.remove p).id_to_character x.id = some x ↔ w.online x ∧ x ≠ p := by
  by_cases hx : x.id = p.id
  · simp only [WorldRegistrar.remove, hx, Function.update_self, World.online]
    constructor
    · rintro ⟨⟩
    · rintro ⟨h, hne⟩
      rw [hp] at h
      exact absurd (Option.some.inj h).symm hne
  · simp only [WorldRegistrar.remove, Function.update_of_ne hx, World.online]
    constructor
    · exact fun h => ⟨h, fun he => hx (congrArg _ he)⟩
    · exact And.left

/-- The player removes a friend who is offline, and hears of nothing else. -/
def RemovesOffline (w : World) (op : FriendOp) (p : EntityPtr) (view : Finset Bytes) (pks : List Packet) : Prop :=
  ∃ name, op = .process_req_friend_remove p name ∧
    w.db.char_name_to_uid name ∈ w.db.get_friends_of p.id ∧
    w.registry.id_to_character (w.db.char_name_to_uid name) = none ∧
    pks = [.broken_friendship name] ∧ name ∉ view

theorem mail_of_none {ns : List (EntityPtr × Packet)} (h : ∀ x ∈ ns, x.1 ≠ p) : mail p ns = [] := by
  simp only [mail, List.map_eq_nil_iff, List.filter_eq_nil_iff, decide_eq_true_eq]
  exact h

/-- Packets that are not about presence. -/
theorem mail_quiet {ns : List (EntityPtr × Packet)} (h : ∀ x ∈ ns, ∀ v, see v x.2 = v ∧ Fits v x.2)
    (p : EntityPtr) (view : Finset Bytes) : (mail p ns).foldl see view = view ∧ AllFit view (mail p ns) := by
  have hall : ∀ pk ∈ mail p ns, see view pk = view ∧ Fits view pk := by
    intro pk hpk
    obtain ⟨x, hx, rfl⟩ := List.mem_map.1 hpk
    exact h x (List.mem_filter.1 hx).1 view
  generalize mail p ns = pks at hall
  induction pks with
  | nil => exact ⟨rfl, trivial⟩
  | cons pk pks ih =>
    obtain ⟨h1, h2⟩ := hall pk List.mem_cons_self
    obtain ⟨h3, h4⟩ := ih fun pk' hpk' => hall pk' (List.mem_cons_of_mem _ hpk')
    rw [List.foldl_cons, h1]
    exact ⟨h3, h2, by rw [h1]; exact h4⟩

theorem SamePlayers.id_unique {r : WorldRegistrar} (ha : r.id_to_character a.id = some a)
    (hb : r.id_to_character b.id = some b) : a.id = b.id ↔ a = b := by
  constructor
  · intro h
    rw [h, hb] at ha
    exact (Option.some.inj ha).symm
  · rintro rfl; rfl

theorem friend_online_make {w1 : World} (h : w1.db_answer = none) (hr : w1.registry = w.registry)
    {f : FriendSystem} {ns : List (EntityPtr × Packet)} {st : Statement} (hp : w.online p) (ha : w.online a)
    (hb : w.online b) (x : EntityPtr) :
    ((w1.friended f ns).committed st (w.db.make_friends b.id a.id)).friend_online p x ↔
      w.friend_online p x ∨ (p = a ∧ x = b) ∨ (p = b ∧ x = a) := by
  unfold World.friend_online World.online
  rw [World.committed_db _ _ _ _ _ h, Database.mem_friends_make, World.committed_registry, World.friended_registry, hr]
  constructor
  · rintro ⟨hx, hf | ⟨h1, h2⟩ | ⟨h1, h2⟩⟩
    · exact .inl ⟨hx, hf⟩
    · exact .inr (.inr ⟨(SamePlayers.id_unique hp hb).1 h1, (SamePlayers.id_unique hx ha).1 h2⟩)
    · exact .inr (.inl ⟨(SamePlayers.id_unique hp ha).1 h1, (SamePlayers.id_unique hx hb).1 h2⟩)
  · rintro (⟨hx, hf⟩ | ⟨rfl, rfl⟩ | ⟨rfl, rfl⟩)
    · exact ⟨hx, .inl hf⟩
    · exact ⟨hb, .inr (.inr ⟨rfl, rfl⟩)⟩
    · exact ⟨ha, .inr (.inl ⟨rfl, rfl⟩)⟩

theorem friend_online_remove {w1 : World} (h : w1.db_answer = none) (hr : w1.registry = w.registry)
    (hfs : w.db.FirstSmaller) {f : FriendSystem} {ns : List (EntityPtr × Packet)} {st : Statement} {id : Nat}
    (hp : w.online p) (ha : w.online a) (x : EntityPtr) :
    ((w1.friended f ns).committed st (w.db.remove_friends id a.id)).friend_online p x ↔
      w.friend_online p x ∧ ¬ ((p = a ∧ x.id = id) ∨ (p.id = id ∧ x = a)) := by
  unfold World.friend_online World.online
  rw [World.committed_db _ _ _ _ _ h, Database.mem_friends_remove hfs, World.committed_registry,
    World.friended_registry, hr, and_assoc]
  refine and_congr_right fun hx => and_congr_right fun _ => not_congr ?_
  rw [or_comm, SamePlayers.id_unique hp ha, SamePlayers.id_unique hx ha]

variable {op : FriendOp}

/-- What `p` is sent keeps his view exact and fits it, unless he removes a friend
who is offline. -/
def ViewKept (w w' : World) (op : FriendOp) (p : EntityPtr) (view : Finset Bytes) : Prop :=
  (w'.online p → Sees w' p ((mail p w'.notices).foldl see view)) ∧
  (AllFit view (mail p w'.notices) ∨ RemovesOffline w op p view (mail p w'.notices))

theorem ViewKept.of_none (hv : Sees w p view) (hm : mail p w'.notices = [])
    (hk : ∀ x, w'.friend_online p x ↔ w.friend_online p x) : ViewKept w w' op p view := by
  unfold ViewKept
  rw [hm]
  exact ⟨fun _ => hv.same hk, .inl trivial⟩

theorem ViewKept.of_gain {pk : Packet} (hv : Sees w p view) (hm : mail p w'.notices = [pk])
    (hpk : see view pk = insert q.name view) (hfit : Fits view pk)
    (hk : ∀ x, w'.friend_online p x ↔ w.friend_online p x ∨ x = q) : ViewKept w w' op p view := by
  unfold ViewKept
  rw [hm, List.foldl_cons, List.foldl_nil, hpk]
  exact ⟨fun _ => hv.insert hk, .inl ⟨hfit, trivial⟩⟩

theorem ViewKept.of_loss {pk : Packet} (hs : SamePlayers w.registry w.friends) (hv : Sees w p view)
    (hm : mail p w'.notices = [pk]) (hpk : see view pk = view.erase q.name) (hfit : Fits view pk) (hq : w.online q)
    (hk : ∀ x, w'.friend_online p x ↔ w.friend_online p x ∧ x ≠ q) : ViewKept w w' op p view := by
  unfold ViewKept
  rw [hm, List.foldl_cons, List.foldl_nil, hpk]
  exact ⟨fun _ => hv.erase hs hq hk, .inl ⟨hfit, trivial⟩⟩

/-- `q` comes. -/
theorem view_kept_newcomer (hi : FriendInv w) (hop : FriendOp.Permitted w (.register_me q)) (hp : w.online p)
    (hv : Sees w p view) (hreg : w'.registry = w.registry.add q) (hdb : w'.db = w.db)
    (hsent : w'.notices = w.greetings q (w.db.get_friends_of q.id)) : ViewKept w w' (.register_me q) p view := by
  have hs := hi.same_players
  have hqp : q ≠ p := by
    rintro rfl
    rw [World.online, hop.1] at hp
    cases hp
  have hm := mail_greetings_friend hs hp hqp (w.db.get_friends_of q.id)
  rw [← hsent] at hm
  have hon (x : EntityPtr) : w'.friend_online p x ↔ (w.online x ∨ x = q) ∧ x.id ∈ w.db.get_friends_of p.id := by
    rw [World.friend_online, World.online, hreg, hdb, online_add hop.1]
  by_cases hf : p.id ∈ w.db.get_friends_of q.id
  · rw [if_pos hf] at hm
    refine .of_gain hv hm rfl ?_ fun x => ?_
    · show q.name ∉ view
      rw [hv]
      rintro ⟨x, hx, hn⟩
      have := (hs.by_id _ _ hx.1).2
      rw [hn, hop.2] at this
      cases this
    · rw [hon, World.friend_online]
      constructor
      · rintro ⟨hx | rfl, hxf⟩
        · exact .inl ⟨hx, hxf⟩
        · exact .inr rfl
      · rintro (⟨hx, hxf⟩ | rfl)
        · exact ⟨.inl hx, hxf⟩
        · exact ⟨.inr rfl, Database.mem_get_friends_of_comm.1 hf⟩
  · rw [if_neg hf] at hm
    refine .of_none hv hm fun x => ?_
    rw [hon, World.friend_online]
    constructor
    · rintro ⟨hx | rfl, hxf⟩
      · exact ⟨hx, hxf⟩
      · exact absurd (Database.mem_get_friends_of_comm.1 hxf) hf
    · exact fun hx => ⟨.inl hx.1, hx.2⟩

/-- `q` goes. -/
theorem view_kept_leaver (hi : FriendInv w) (hq : w.online q) (hp : w.online p) (hv : Sees w p view) {l : FriendList}
    (hl : w.friends.friendlist_of_id q.id = some l) (hreg : w'.registry = w.registry.remove q) (hdb : w'.db = w.db)
    (hsent : w'.notices = w.goodbyes q l.friend_ids) : ViewKept w w' (.unregister_me q) p view := by
  have hs := hi.same_players
  have hm := mail_goodbyes (q := q) hs hp l.friend_ids
  rw [← hsent] at hm
  have hon (x : EntityPtr) : w'.friend_online p x ↔ w.friend_online p x ∧ x ≠ q := by
    rw [World.friend_online, World.online, hreg, hdb, online_remove hq, World.friend_online]
    tauto
  by_cases hf : p.id ∈ l.friend_ids
  · have hfq : q.id ∈ w.db.get_friends_of p.id :=
      Database.mem_get_friends_of_comm.1 ((hi.agree q.id l hl p.id).1 hf)
    rw [if_pos hf] at hm
    exact .of_loss hs hv hm rfl ((hv q.name).2 ⟨q, ⟨hq, hfq⟩, rfl⟩) hq hon
  · rw [if_neg hf] at hm
    refine .of_none hv hm fun x => (hon x).trans (and_iff_left_of_imp ?_)
    rintro hx rfl
    exact hf ((hi.agree x.id l hl p.id).2 (Database.mem_get_friends_of_comm.1 hx.2))

/-- `a` and `b` have become friends. -/
theorem view_kept_match (hs : SamePlayers w.registry w.friends) (ha : w.online a) (hb : w.online b) (hab : b ≠ a)
    (hnot : b.id ∉ w.db.get_friends_of a.id) (hv : Sees w p view)
    (hsent : w'.notices = [(a, .new_friendship b.name), (b, .new_friendship a.name)])
    (hon : ∀ x, w'.friend_online p x ↔ w.friend_online p x ∨ (p = a ∧ x = b) ∨ (p = b ∧ x = a)) :
    ViewKept w w' op p view := by
  by_cases hpa : p = a
  · subst hpa
    have hm : mail p w'.notices = [.new_friendship b.name] := by
      rw [hsent, mail_cons_self, mail_cons_ne hab, mail_nil]
    refine .of_gain hv hm rfl (hv.fresh hs hb fun hx => hnot hx.2) fun x => ?_
    rw [hon]
    simp [hab.symm]
  by_cases hpb : p = b
  · subst hpb
    have hm : mail p w'.notices = [.new_friendship a.name] := by
      rw [hsent, mail_cons_ne (Ne.symm hpa), mail_cons_self, mail_nil]
    refine .of_gain hv hm rfl (hv.fresh hs ha fun hx => hnot (Database.mem_get_friends_of_comm.1 hx.2)) fun x => ?_
    rw [hon]
    simp [hpa]
  refine .of_none hv (by rw [hsent, mail_cons_ne (Ne.symm hpa), mail_cons_ne (Ne.symm hpb), mail_nil]) fun x => ?_
  rw [hon]
  simp [hpa, hpb]

/-- `a` and `b` are friends no longer. -/
theorem view_kept_break (hs : SamePlayers w.registry w.friends) (ha : w.online a) (hb : w.online b) (hab : b ≠ a)
    (hfriends : b.id ∈ w.db.get_friends_of a.id) (hp : w.online p) (hv : Sees w p view)
    (hsent : w'.notices = [(a, .broken_friendship b.name), (b, .broken_friendship a.name)])
    (hon : ∀ x, w'.friend_online p x ↔ w.friend_online p x ∧ ¬ ((p = a ∧ x.id = b.id) ∨ (p.id = b.id ∧ x = a))) :
    ViewKept w w' op p view := by
  by_cases hpa : p = a
  · subst hpa
    have hm : mail p w'.notices = [.broken_friendship b.name] := by
      rw [hsent, mail_cons_self, mail_cons_ne hab, mail_nil]
    refine .of_loss hs hv hm rfl ((hv b.name).2 ⟨b, ⟨hb, hfriends⟩, rfl⟩) hb
      fun x => (hon x).trans (and_congr_right fun hx => ?_)
    rw [SamePlayers.id_unique hx.1 hb, SamePlayers.id_unique hp hb]
    simp [hab.symm]
  by_cases hpb : p = b
  · subst hpb
    have hm : mail p w'.notices = [.broken_friendship a.name] := by
      rw [hsent, mail_cons_ne (Ne.symm hpa), mail_cons_self, mail_nil]
    refine .of_loss hs hv hm rfl ((hv a.name).2 ⟨a, ⟨ha, Database.mem_get_friends_of_comm.1 hfriends⟩, rfl⟩) ha fun x => ?_
    rw [hon]
    simp [hpa]
  refine .of_none hv (by rw [hsent, mail_cons_ne (Ne.symm hpa), mail_cons_ne (Ne.symm hpb), mail_nil]) fun x => ?_
  rw [hon]
  simp [hpa, SamePlayers.id_unique hp hb, hpb]

/-- `a` removes a friend who is offline: only he hears of it, and his view does
not have the name. -/
theorem view_kept_removal {naming : Nat → Bytes} (hinj : Function.Injective naming) (hnamed : Named naming w)
    (hi : FriendInv w) {name : Bytes} (hname : naming (w.db.char_name_to_uid name) = name)
    (hfriends : w.db.char_name_to_uid name ∈ w.db.get_friends_of a.id)
    (hoff : w.friends.friendlist_of_id (w.db.char_name_to_uid name) = none) (hp : w.online p) (hv : Sees w p view)
    (hsent : w'.notices = [(a, .broken_friendship name)])
    (hon : ∀ x, w'.friend_online p x ↔ w.friend_online p x ∧
      ¬ ((p = a ∧ x.id = w.db.char_name_to_uid name) ∨ (p.id = w.db.char_name_to_uid name ∧ x = a))) :
    ViewKept w w' (.process_req_friend_remove a name) p view := by
  have hs := hi.same_players
  have hother (x : EntityPtr) (hx : w.online x) : x.id ≠ w.db.char_name_to_uid name := by
    intro hid
    have := hs.online_list x.id x hx
    rw [hid, hoff] at this
    cases this
  have hsame (x : EntityPtr) : w'.friend_online p x ↔ w.friend_online p x := by
    refine (hon x).trans (and_iff_left_of_imp ?_)
    rintro hx (⟨_, h⟩ | ⟨h, _⟩)
    · exact hother x hx.1 h
    · exact hother p hp h
  by_cases hpa : p = a
  · subst hpa
    have hout : name ∉ view := by
      rw [hv]
      rintro ⟨x, hx, hn⟩
      exact hother x hx.1 (hinj ((hnamed x hx.1).symm.trans (hn.trans hname.symm)))
    have hnone : w.registry.id_to_character (w.db.char_name_to_uid name) = none := by
      cases hr : w.registry.id_to_character (w.db.char_name_to_uid name) with
      | none => rfl
      | some x =>
        have := hs.online_list _ x hr
        rw [hoff] at this
        cases this
    have hm : mail p w'.notices = [.broken_friendship name] := by rw [hsent, mail_cons_self, mail_nil]
    refine ⟨fun _ => ?_, .inr ⟨name, rfl, hfriends, hnone, hm, hout⟩⟩
    rw [hm, List.foldl_cons, List.foldl_nil, see, Finset.erase_eq_of_notMem hout]
    exact hv.same hsame
  · exact .of_none hv (by rw [hsent, mail_cons_ne (Ne.symm hpa), mail_nil]) hsame

/-- What comes in for a player who was online before the call. -/
theorem FriendEffect.keeps_view {naming : Nat → Bytes} (hinj : Function.Injective naming) (h : FriendEffect w op none w')
    (hi : FriendInv w) (hop : op.Permitted w) (hw : w.notices = []) (hdb : AgreesWith naming w.db)
    (hnamed : Named naming w) (hp : w.online p) (hv : Sees w p view) : ViewKept w w' op p view := by
  have hs := hi.same_players
  generalize hres : (none : Option StdException) = res at h
  cases h with
  | register_me q ha =>
    refine view_kept_newcomer hi hop hp hv rfl rfl ?_
    simp only [World.with_registry_notices, World.friended_notices, World.executed_notices, hw, List.nil_append]
  | unregister_me q l hl =>
    refine view_kept_leaver hi hop hp hv hl rfl rfl ?_
    simp only [World.with_registry_notices, World.friended_notices, hw, List.nil_append]
  | add_match q name f l l' hl hq hne hm hl' hr =>
    obtain ⟨rfl, hf⟩ := hs.by_name name f hq
    refine view_kept_match hs hop hf (fun he => hne (he ▸ rfl)) (fun hx => hm ((hi.agree q.id l hl f.id).2 hx)) hv ?_
      (friend_online_make hres.symm rfl hp hop hf)
    simp only [World.committed_notices, World.friended_notices, hw, List.nil_append]
  | remove_offline q name l id ha hl hid h0 hm hl' =>
    subst hid
    refine view_kept_removal hinj hnamed hi (hdb name h0) ((hi.agree q.id l hl _).1 hm) hl' hp hv ?_
      (friend_online_remove hres.symm rfl hi.first_smaller hp hop)
    simp only [World.committed_notices, World.friended_notices, World.executed_notices, hw, List.nil_append]
  | remove_online q name l f l' ha hl hid h0 hm hne hon hl' =>
    obtain rfl : f.name = name := by rw [hnamed f hon, ← hid]; exact hdb name (by rw [hid]; exact h0)
    refine view_kept_break hs hop hon (fun he => hne (he ▸ rfl)) ((hi.agree q.id l hl f.id).1 hm) hp hv ?_
      (friend_online_remove hres.symm rfl hi.first_smaller hp hop)
    simp only [World.committed_notices, World.friended_notices, World.executed_notices, hw, List.nil_append]
  | add_fail | add_waiting | add_recorded | remove_fail =>
    -- Answers that are not about presence.
    unfold ViewKept
    simp only [World.friended_notices, World.executed_notices, hw, List.nil_append]
    refine ⟨fun _ => ?_, .inl (mail_quiet ?_ p view).2⟩
    · rw [(mail_quiet ?_ p view).1]
      · exact hv
      · simp [see, Fits]
    · simp [see, Fits]
  | cleanup => exact .of_none hv (by rw [World.friended_notices, hw, List.append_nil, mail_nil]) fun x => Iff.rfl
  | register_me_fails | remove_lookup_fails => cases hres

/-- What comes in for a player who has just registered. -/
theorem FriendEffect.first_view (h : FriendEffect w (.register_me p) none w') (hi : FriendInv w)
    (hop : FriendOp.Permitted w (.register_me p)) (hw : w.notices = []) :
    Sees w' p ((mail p w'.notices).foldl see ∅) ∧ AllFit ∅ (mail p w'.notices) := by
  have hs := hi.same_players
  have hoff : ¬ w.online p := fun h => by rw [World.online, hop.1] at h; cases h
  cases h with
  | register_me _ ha =>
    simp only [World.with_registry_notices, World.friended_notices, World.executed_notices, hw, List.nil_append,
      mail_greetings_self hs hoff]
    obtain ⟨h1, h2⟩ := see_greetings hs (w.db.get_friends_of p.id).nodup fun _ _ f _ => Finset.notMem_empty f.name
    refine ⟨fun n => ?_, h1⟩
    rw [h2]
    constructor
    · rintro (h | ⟨i, hm, f, hr, rfl⟩)
      · exact absurd h (Finset.notMem_empty n)
      · obtain ⟨rfl, _⟩ := hs.by_id i f hr
        exact ⟨f, ⟨(online_add hop.1 f).2 (.inl hr), hm⟩, rfl⟩
    · rintro ⟨f, ⟨hon, hm⟩, rfl⟩
      rcases (online_add hop.1 f).1 hon with hr | rfl
      · exact .inr ⟨f.id, hm, f, hr, rfl⟩
      · exact absurd hm (hi.first_smaller.not_own_friend _)

theorem World.backend_online (hs : SamePlayers w.registry w.friends) {i : Nat} {l : FriendList}
    (hl : w.friends.friendlist_of_id i = some l) : w.online l.backend := by
  have hon := hs.list_online i l hl
  rw [World.online, (hs.by_id i _ hon).1]
  exact hon

theorem World.greetings_recipients (hs : SamePlayers w.registry w.friends) (p : EntityPtr) (friend_ids : USet Nat) :
    ∀ x ∈ w.greetings p friend_ids, w.online x.1 ∨ x.1 = p := by
  intro x hx
  obtain ⟨i, _, hx⟩ := List.mem_flatMap.1 hx
  unfold World.greeting at hx
  split at hx
  · rename_i l q hl hr
    simp only [List.mem_cons, List.not_mem_nil, or_false] at hx
    rcases hx with rfl | rfl
    · exact .inr rfl
    · exact .inl (World.backend_online hs hl)
  · cases hx

/-- Packets go to players who are online or just registering. -/
theorem FriendEffect.recipients {res : Option StdException} (h : FriendEffect w op res w')
    (hs : SamePlayers w.registry w.friends) (hop : op.Permitted w) (hw : w.notices = []) :
    ∀ x ∈ w'.notices, w.online x.1 ∨ op = .register_me x.1 := by
  cases h with
  | register_me p ha =>
    intro x hx
    simp only [World.with_registry_notices, World.friended_notices, World.executed_notices, hw, List.nil_append] at hx
    exact (w.greetings_recipients hs p _ x hx).imp id fun h => by rw [h]
  | register_me_fails p e ha => simp [hw]
  | unregister_me p l hl =>
    intro x hx
    simp only [World.with_registry_notices, World.friended_notices, hw, List.nil_append,
      World.goodbyes, List.mem_flatMap] at hx
    obtain ⟨i, _, hx⟩ := hx
    split at hx
    · rename_i l' hl'
      rw [List.mem_singleton.1 hx]
      exact .inl (World.backend_online hs hl')
    · cases hx
  | remove_lookup_fails p name e ha => simp [hw]
  | add_match p name q l l' hl hq hne hm hl' hr =>
    simp only [World.committed_notices, World.friended_notices, hw, List.nil_append, List.forall_mem_cons]
    exact ⟨.inl hop, .inl (hs.by_name name q hq).2, by simp⟩
  | add_recorded p name q l hl hq hne hm hr =>
    simp only [World.friended_notices, hw, List.nil_append, List.forall_mem_cons]
    exact ⟨.inl (hs.by_name name q hq).2, .inl hop, by simp⟩
  | remove_online p name l q l' ha hl hid h0 hm hne hon hl' =>
    simp only [World.committed_notices, World.friended_notices, World.executed_notices, hw, List.nil_append,
      List.forall_mem_cons]
    exact ⟨.inl hop, .inl hon, by simp⟩
  | remove_offline =>
    simp only [World.committed_notices, World.friended_notices, World.executed_notices, hw, List.nil_append,
      List.forall_mem_cons]
    exact ⟨.inl hop, by simp⟩
  | cleanup => simp [hw]
  | add_fail | add_waiting | remove_fail =>
    simp only [World.friended_notices, World.executed_notices, hw, List.nil_append, List.forall_mem_cons]
    exact ⟨.inl hop, by simp⟩

theorem FriendEffect.online (h : FriendEffect w op none w') (hop : op.Permitted w) (hp : w'.online p) :
    w.online p ∨ op = .register_me p := by
  generalize (none : Option StdException) = res at h
  cases h with
  | register_me q ha =>
    rcases (online_add hop.1 p).1 hp with h | rfl
    · exact .inl h
    · exact .inr rfl
  | unregister_me q l hl => exact .inl ((online_remove hop p).1 hp).1
  | _ => exact .inl hp

end step

/-! ## Runs -/

/-- In the step `p` removes a friend who is offline. -/
def BreaksOffline (x : Taken World FriendEvent) (p : EntityPtr) (view : Finset Bytes) : Prop :=
  ∃ op, x.event = .call op ∧ RemovesOffline x.pre op p view (mail p x.post.notices)

structure PresenceInv (naming : Nat → Bytes) (w : World) : Prop extends FriendInv w where
  agrees : AgreesWith naming w.db
  named : Named naming w

variable {naming : Nat → Bytes} {w w' : World} {ev : FriendEvent}

theorem named_step (hi : PresenceInv naming w) (hs : (namedMachine naming).step w ev w') : Named naming w' := by
  obtain ⟨hs, _, hname⟩ := hs
  intro q hq
  cases ev with
  | call op =>
    obtain ⟨env, hop, he⟩ := friend_call_effect hi.toFriendInv hs
    rcases he.online hop hq with h | rfl
    · exact hi.named q h
    · exact hname q rfl
  | other_tables =>
    obtain ⟨db, _, rfl⟩ := hs
    exact hi.named q hq
  | reorder =>
    rw [World.online, hs.1.registry] at hq
    exact hi.named q hq

theorem presence_inv_step (hi : PresenceInv naming w) (hs : (namedMachine naming).step w ev w') :
    PresenceInv naming w' :=
  ⟨friend_inv_step hi.toFriendInv hs.1, hs.2.1, named_step hi hs⟩

/-- One more step: the view stays exact, and what came in fitted it. -/
theorem presence_step (hinj : Function.Injective naming) (hi : PresenceInv naming w)
    (hs : (namedMachine naming).step w ev w') {p : EntityPtr} {view : Finset Bytes}
    (hv : w.online p → Sees w p view) :
    (w'.online p → Sees w' p (look p view ⟨w, ev, w'⟩)) ∧
    (AllFit (ev.start p view) (mail p w'.notices) ∨ BreaksOffline ⟨w, ev, w'⟩ p view) := by
  obtain ⟨hs, _, _⟩ := hs
  cases ev with
  | call op =>
    obtain ⟨env, hop, he⟩ := friend_call_effect hi.toFriendInv hs
    have hib := hi.toFriendInv.begin env
    by_cases hreg : op = .register_me p
    · subst hreg
      obtain ⟨h1, h2⟩ := he.first_view hib hop rfl
      have hstart : (FriendEvent.call (.register_me p)).start p view = ∅ := if_pos rfl
      exact ⟨fun _ => by unfold look; rw [hstart]; exact h1, .inl (by rw [hstart]; exact h2)⟩
    · have hstart : (FriendEvent.call op).start p view = view := by
        cases op with
        | register_me q => exact if_neg fun hq => hreg (by rw [hq])
        | _ => rfl
      by_cases hp : w.online p
      · obtain ⟨h1, h2⟩ := he.keeps_view hinj hib hop rfl hi.agrees hi.named hp (hv hp)
        refine ⟨fun hp' => by unfold look; rw [hstart]; exact h1 hp', ?_⟩
        rw [hstart]
        exact h2.imp id fun h => ⟨op, rfl, h⟩
      · have hnone : mail p w'.notices = [] := mail_of_none fun x hx => by
          rintro rfl
          rcases he.recipients hib.same_players hop rfl x hx with h | h
          · exact hp h
          · exact hreg h
        rw [hnone]
        refine ⟨fun hp' => ?_, .inl trivial⟩
        rcases he.online hop hp' with h | h
        · exact absurd h hp
        · exact absurd h hreg
  | other_tables =>
    obtain ⟨db, hdb, rfl⟩ := hs
    refine ⟨fun hp => (hv hp).same fun x => ?_, .inl trivial⟩
    simp only [World.friend_online, Database.mem_get_friends_of, hdb]
    rfl
  | reorder =>
    obtain ⟨h, hn, _⟩ := hs
    unfold look
    simp only [hn, mail_nil, List.foldl_nil]
    refine ⟨fun hp => (hv ?_).same fun x => ?_, .inl trivial⟩
    · rw [World.online, h.registry] at hp
      exact hp
    · simp only [World.friend_online, World.online, h.registry, h.friends_of]

/-- After every run the view of an online player is the names of the players who
are online and on his list. Every notification of the run adds a name that was
not in the view or removes one that was, but for one kind: whoever removes a
friend who is offline is told that the friendship with the name is broken. -/
theorem presence_view_exact {w0 : World} {tr : List (Taken World FriendEvent)} (hinj : Function.Injective naming)
    (h0 : (namedMachine naming).init w0) (h : (namedMachine naming).Run w0 tr w) (p : EntityPtr) :
    (∀ l, w.online p → w.friends.friendlist_of_id p.id = some l →
      ∀ n, n ∈ view_of p tr ↔ ∃ q, w.online q ∧ q.name = n ∧ q.id ∈ l.friend_ids) ∧
    ∀ l x r, tr = l ++ x :: r →
      AllFit (x.event.start p (view_of p l)) (mail p x.post.notices) ∨ BreaksOffline x p (view_of p l) := by
  have hinit : PresenceInv naming w0 :=
    ⟨friend_inv_init h0.1, h0.2, fun q hq => by simp [World.online, h0.1.2.1] at hq⟩
  have hrun : PresenceInv naming w ∧ (w.online p → Sees w p (view_of p tr)) ∧
      ∀ l x r, tr = l ++ x :: r →
        AllFit (x.event.start p (view_of p l)) (mail p x.post.notices) ∨ BreaksOffline x p (view_of p l) := by
    induction h with
    | nil =>
      refine ⟨hinit, fun hp => ?_, by simp⟩
      simp [World.online, h0.1.2.1] at hp
    | @snoc tr w1 ev w2 hr hs ih =>
      obtain ⟨hi, hv, hfit⟩ := ih
      obtain ⟨h1, h2⟩ := presence_step hinj hi hs hv
      refine ⟨presence_inv_step hi hs, fun hp => ?_, fun l x r heq => ?_⟩
      · rw [view_of, List.foldl_append]
        exact h1 hp
      · rcases List.eq_nil_or_concat r with rfl | ⟨r', y, rfl⟩
        · obtain ⟨rfl, hx⟩ := List.append_inj' heq rfl
          simp only [List.cons.injEq, and_true] at hx
          subst hx
          exact h2
        · rw [List.concat_eq_append, ← List.cons_append, ← List.append_assoc] at heq
          obtain ⟨rfl, _⟩ := List.append_inj' heq rfl
          exact hfit l x r' rfl
  obtain ⟨hi, hv, hfit⟩ := hrun
  refine ⟨fun l hp hl n => ?_, hfit⟩
  rw [hv hp n]
  constructor
  · rintro ⟨q, ⟨hq, hf⟩, hn⟩
    exact ⟨q, hq, hn, (hi.agree p.id l hl q.id).2 hf⟩
  · rintro ⟨q, hq, hn, hf⟩
    exact ⟨q, ⟨hq, (hi.agree p.id l hl q.id).1 hf⟩, hn⟩

/-! Bob and carol go by their names, all others by strings of zeros. -/

def two_names (i : Nat) : Bytes := if i = 8 then ascii "bob" else if i = 9 then ascii "carol" else List.replicate i 0

theorem two_names_injective : Function.Injective two_names := by
  have hbob (i : Nat) : ascii "bob" ≠ List.replicate i 0 := fun h =>
    absurd (List.eq_of_mem_replicate (h ▸ by decide : (98 : UInt8) ∈ List.replicate i 0)) (by decide)
  have hcarol (i : Nat) : ascii "carol" ≠ List.replicate i 0 := fun h =>
    absurd (List.eq_of_mem_replicate (h ▸ by decide : (99 : UInt8) ∈ List.replicate i 0)) (by decide)
  intro i j h
  have hlen := congrArg List.length h
  unfold two_names at h hlen
  split_ifs at h hlen with h1 h2 h3 h4 h5 h6
  · omega
  · exact absurd h (by decide)
  · exact absurd h (hbob j)
  · exact absurd h (by decide)
  · omega
  · exact absurd h (hcarol j)
  · exact absurd h.symm (hbob i)
  · exact absurd h.symm (hcarol i)
  · simpa using hlen

theorem agrees_without_characters {db : Database} (h : db.characters = []) (naming : Nat → Bytes) :
    AgreesWith naming db := fun n hn => absurd (by rw [Database.char_name_to_uid, h]; rfl) hn

theorem named_meeting_run : (namedMachine two_names).Run (World.fresh .empty) meeting_steps (played meeting) := by
  refine meeting_run.of_steps fun x hx hs => ?_
  simp only [meeting_steps, List.mem_cons, List.not_mem_nil, or_false] at hx
  refine ⟨hs, agrees_without_characters ?_ _, fun p hp => ?_⟩
  · rcases hx with rfl | rfl | rfl | rfl <;> rfl
  · rcases hx with rfl | rfl | rfl | rfl <;> cases hp <;> rfl

theorem bob_sees_carol : ascii "carol" ∈ view_of bob meeting_steps := by
  obtain ⟨hview, _⟩ := presence_view_exact two_names_injective
    ⟨fresh_init, agrees_without_characters rfl _⟩ named_meeting_run bob
  exact (hview _ rfl rfl _).2 ⟨carol, rfl, rfl, by decide⟩

/-! Bob removes carol, who is offline. -/

def bob_alone : World := endState (FriendOp.process_req_friend_remove bob (ascii "carol")).run (bob_in.begin ⟨0, 0, 0, []⟩)

def bob_removes_carol : Taken World FriendEvent :=
  ⟨bob_in, .call (.process_req_friend_remove bob (ascii "carol")), bob_alone⟩

/-- Bob is told that the friendship with carol is broken, although his view is empty. -/
theorem broken_friendship_of_nobody :
    (namedMachine two_names).init befriended ∧
    (namedMachine two_names).Run befriended [bob_comes, bob_removes_carol] bob_alone ∧
    ¬ AllFit (bob_removes_carol.event.start bob (view_of bob [bob_comes])) (mail bob bob_removes_carol.post.notices) := by
  have hagree : AgreesWith two_names befriended.db := by
    intro n
    by_cases hb : ascii "bob" = n
    · subst hb; decide
    by_cases hc : ascii "carol" = n
    · subst hc; decide
    have hnone : befriended.db.char_name_to_uid n = 0 := by
      simp [befriended, World.fresh, Database.char_name_to_uid, hb, hc]
    exact fun h => absurd hnone h
  refine ⟨⟨⟨rfl, rfl, by unfold Database.FirstSmaller; decide⟩, hagree⟩, ?_, ?_⟩
  · have h1 : (namedMachine two_names).step befriended (.call (.register_me bob)) bob_in :=
      ⟨⟨⟨0, 0, 0, []⟩, rfl, ⟨rfl, rfl⟩, rfl⟩, hagree, by rintro p ⟨⟩; rfl⟩
    have h2 : (namedMachine two_names).step bob_in (.call (.process_req_friend_remove bob (ascii "carol"))) bob_alone :=
      ⟨⟨⟨0, 0, 0, []⟩, rfl, rfl, rfl⟩, hagree, by rintro p ⟨⟩⟩
    exact (Machine.Run.nil.snoc h1).snoc h2
  · rintro ⟨h, _⟩
    revert h
    unfold Fits
    decide

end tejk_it_izi
