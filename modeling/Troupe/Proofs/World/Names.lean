import Troupe.Proofs.World.Conduct

/-!
# What names lead to

A name in a system leads to an actor from the time that the actor gets it until it is given to
somebody else, freed, or until the actor leaves the system, and this holds only as long as somebody
holds the system. Nobody gets a name in a system that nobody holds: clients ask for it under a name
of their own, and a child gets its name in the system that its parent is registered in.

## Main definitions

* `Book.isLive` — somebody holds a system
* `Book.known?` — what a system knows under a name
* `Book.Kept` — what clients hold is live, and what nobody holds is forgotten

## Main results

* `Book.known?_lists`, `leads_lists` and what follows them — what a turn does to names
* `World.kept_run` — the books of runs are kept
* `World.live_of_registers?` — names are given in live systems only
-/

namespace Troupe

namespace Book

variable {b : Book} {s : SystemId} {key : String} {a : ActorId}

/-- Whether a system is there and somebody holds it. -/
def isLive (b : Book) (s : SystemId) : Bool := b.houses[s]?.any (·.held)

theorem lt_of_isLive (h : b.isLive s = true) : s < b.houses.length := by
  by_contra hge
  rw [isLive, List.getElem?_eq_none (Nat.le_of_not_lt hge)] at h
  cases h

theorem isLive_eq (h : s < b.houses.length) : b.isLive s = (b.house s).held := by
  rw [isLive, house, List.getElem?_eq_getElem h]
  rfl

/-- What a system knows under a name. -/
def known? (b : Book) (s : SystemId) (key : String) : Option Entry :=
  (b.house s).registry.find? key

theorem leads_eq (b : Book) (s : SystemId) (key : String) :
    b.leads s key = (b.known? s key).map (·.actor) := rfl

theorem known?_of_le (h : b.houses.length ≤ s) : b.known? s key = none := by
  rw [known?, house, List.getElem?_eq_none h]
  rfl

/-! ### Turns -/

theorem isLive_onHouse (k : SystemId) {f : House → House} (hf : ∀ h, (f h).held = h.held) :
    (b.onHouse s f).isLive k = b.isLive k := by
  rw [isLive, isLive, onHouse, List.getElem?_modify]
  cases b.houses[k]? with
  | none => rfl
  | some house => by_cases hk : s = k <;> simp [hk, hf]

theorem isLive_lists (k : SystemId) (invocable : Bool) :
    (b.turn (.lists s key a invocable)).isLive k = b.isLive k :=
  isLive_onHouse (b := b.onPost a fun p => { p with registration := some { system := s, key } })
    (f := fun h => { h with registry := h.registry.insert key { actor := a, invocable } }) k
    fun _ => rfl

theorem isLive_strikes (k : SystemId) : (b.turn (.strikes s key)).isLive k = b.isLive k :=
  isLive_onHouse (f := fun h => { h with registry := h.registry.erase key }) k fun _ => rfl

theorem isLive_wipes (k : SystemId) : (b.turn (.wipes s)).isLive k = b.isLive k :=
  isLive_onHouse (f := fun h => { h with terminated := true, registry := {} }) k fun _ => rfl

/-- What is known under a name after a change of a registry. -/
theorem known?_onHouse (k : SystemId) (key : String) (f : House → House) :
    (b.onHouse s f).known? k key =
      if k = s ∧ s < b.houses.length then (f (b.house s)).registry.find? key
      else b.known? k key := by
  rw [known?, house_onHouse]
  split <;> rfl

theorem known?_lists (hs : s < b.houses.length) (invocable : Bool) (k : SystemId)
    (other : String) :
    (b.turn (.lists s key a invocable)).known? k other =
      if k = s ∧ other = key then some { actor := a, invocable } else b.known? k other := by
  refine (known?_onHouse (b := b.onPost a _) k other _).trans ?_
  have hlen : s < (b.onPost a fun p =>
    { p with registration := some { system := s, key } }).houses.length := hs
  by_cases hk : k = s
  · subst hk
    rw [if_pos ⟨rfl, hlen⟩, Registry.find?_insert]
    by_cases hkey : other = key
    · simp [hkey]
    · simp only [hkey, and_false, if_false]
      rfl
  · rw [if_neg (fun h => hk h.1), if_neg (fun h => hk h.1)]
    rfl

/-- Other names stay, whether or not the system is there. -/
theorem known?_lists_of_ne {invocable : Bool} {k : SystemId} {other : String}
    (h : ¬(k = s ∧ other = key)) :
    (b.turn (.lists s key a invocable)).known? k other = b.known? k other := by
  by_cases hs : s < b.houses.length
  · rw [known?_lists hs, if_neg h]
  · refine (known?_onHouse (b := b.onPost a _) k other _).trans ?_
    rw [if_neg fun heq => hs heq.2]
    rfl

theorem leads_lists (hs : s < b.houses.length) (invocable : Bool) (k : SystemId) (other : String) :
    (b.turn (.lists s key a invocable)).leads k other =
      if k = s ∧ other = key then some a else b.leads k other := by
  rw [leads_eq, known?_lists hs, apply_ite (Option.map _)]
  rfl

theorem known?_strikes (k : SystemId) (other : String) :
    (b.turn (.strikes s key)).known? k other =
      if k = s ∧ other = key then none else b.known? k other := by
  refine (known?_onHouse k other _).trans ?_
  rw [Registry.find?_erase]
  by_cases hk : k = s
  · subst hk
    by_cases hlt : k < b.houses.length
    · by_cases hkey : other = key
      · simp [hlt, hkey]
      · simp only [hlt, hkey, and_self, and_false, if_true, if_false]
        rfl
    · rw [if_neg fun h => hlt h.2, known?_of_le (Nat.le_of_not_lt hlt)]
      simp
  · rw [if_neg fun h => hk h.1, if_neg fun h => hk h.1]

theorem leads_strikes (k : SystemId) (other : String) :
    (b.turn (.strikes s key)).leads k other =
      if k = s ∧ other = key then none else b.leads k other := by
  rw [leads_eq, known?_strikes, apply_ite (Option.map _)]
  rfl

theorem known?_wipes (k : SystemId) (other : String) :
    (b.turn (.wipes s)).known? k other = if k = s then none else b.known? k other := by
  refine (known?_onHouse k other _).trans ?_
  by_cases hk : k = s
  · subst hk
    by_cases hlt : k < b.houses.length
    · rw [if_pos ⟨rfl, hlt⟩, if_pos rfl]
      rfl
    · rw [if_neg fun h => hlt h.2, known?_of_le (Nat.le_of_not_lt hlt)]
      simp
  · rw [if_neg fun h => hk h.1, if_neg hk]

theorem leads_wipes (k : SystemId) (other : String) :
    (b.turn (.wipes s)).leads k other = if k = s then none else b.leads k other := by
  rw [leads_eq, known?_wipes, apply_ite (Option.map _)]
  rfl

theorem isLive_forgets (S : SystemId → Bool) (k : SystemId) :
    (b.turn (.forgets S)).isLive k = (b.isLive k && !S k) := by
  simp only [isLive, turn, List.getElem?_mapIdx]
  cases b.houses[k]? with
  | none => rfl
  | some house => cases hheld : house.held <;> cases S k <;> simp [hheld]

theorem known?_forgets (S : SystemId → Bool) (k : SystemId) (other : String) :
    (b.turn (.forgets S)).known? k other =
      if b.isLive k = true ∧ S k = true then none else b.known? k other := by
  have hturn : (b.turn (.forgets S)).house k =
      if b.isLive k = true ∧ S k = true then { b.house k with held := false, registry := {} }
      else b.house k := by
    by_cases hk : k < b.houses.length
    · rw [isLive_eq hk]
      simp [house, turn, hk]
    · rw [if_neg fun h => hk (lt_of_isLive h.1)]
      simp [house, turn, hk]
  rw [known?, hturn]
  split <;> rfl

theorem leads_forgets (S : SystemId → Bool) (k : SystemId) (other : String) :
    (b.turn (.forgets S)).leads k other =
      if b.isLive k = true ∧ S k = true then none else b.leads k other := by
  rw [leads_eq, known?_forgets, apply_ite (Option.map _)]
  rfl

theorem isLive_leaves (k : SystemId) : (b.turn (.leaves a)).isLive k = b.isLive k := by
  show Option.any _ (b.housesWithout a)[k]? = _
  rw [housesWithout]
  split
  · rfl
  · split
    · exact isLive_onHouse k fun _ => rfl
    · rfl

/-- Whoever leaves frees the name that it remembers, if the name still leads to it. -/
theorem known?_leaves (k : SystemId) (other : String) :
    (b.turn (.leaves a)).known? k other =
      if (b.post a).registration = some { system := k, key := other } ∧ b.isLive k = true ∧
        b.leads k other = some a then none else b.known? k other := by
  have hhouse : (b.turn (.leaves a)).known? k other =
      (((b.housesWithout a)[k]?).getD (default : ActorSystem).house).registry.find? other := rfl
  rw [hhouse, housesWithout]
  cases hreg : (b.post a).registration with
  | none => simp only [reduceCtorEq, false_and, if_false]; rfl
  | some registration =>
    obtain ⟨s, key⟩ := registration
    have hany : ((b.house s).registry.find? key).any (·.actor == a) = true ↔
        b.leads s key = some a := by
      rw [leads]
      cases (b.house s).registry.find? key <;> simp
    simp only
    split
    · rename_i hcond
      rw [Bool.and_eq_true, hany] at hcond
      have hlt : s < b.houses.length := by
        by_contra hge
        rw [leads_eq, known?_of_le (Nat.le_of_not_lt hge)] at hcond
        cases hcond.2
      refine (known?_onHouse (s := s) k other fun h =>
        { h with registry := h.registry.erase key }).trans ?_
      rw [Registry.find?_erase]
      by_cases hk : k = s
      · subst hk
        by_cases hkey : other = key
        · subst hkey
          simp [hlt, isLive_eq hlt, hcond]
        · rw [if_pos ⟨rfl, hlt⟩, if_neg hkey, if_neg]
          · rfl
          · rintro ⟨h, -⟩
            simp only [Option.some.injEq, Registration.mk.injEq] at h
            exact hkey h.2.symm
      · rw [if_neg fun h => hk h.1, if_neg]
        rintro ⟨h, -⟩
        simp only [Option.some.injEq, Registration.mk.injEq] at h
        exact hk h.1.symm
    · rename_i hcond
      rw [Bool.and_eq_true, hany] at hcond
      rw [if_neg]
      · rfl
      · rintro ⟨h, hlive, hleads⟩
        simp only [Option.some.injEq, Registration.mk.injEq] at h
        obtain ⟨rfl, rfl⟩ := h
        exact hcond ⟨(isLive_eq (lt_of_isLive hlive)).symm.trans hlive, hleads⟩

theorem leads_leaves (k : SystemId) (other : String) :
    (b.turn (.leaves a)).leads k other =
      if (b.post a).registration = some { system := k, key := other } ∧ b.isLive k = true ∧
        b.leads k other = some a then none else b.leads k other := by
  rw [leads_eq, known?_leaves, apply_ite (Option.map _)]
  rfl

theorem isLive_founds (k : SystemId) :
    (b.turn .founds).isLive k = (b.isLive k || k == b.houses.length) := by
  simp only [isLive, turn]
  rcases Nat.lt_trichotomy k b.houses.length with hlt | rfl | hgt
  · rw [List.getElem?_append_left hlt]
    simp [Nat.ne_of_lt hlt]
  · simp
  · rw [List.getElem?_eq_none (Nat.le_of_lt hgt),
      List.getElem?_eq_none (by simpa using Nat.succ_le_of_lt hgt)]
    simp [Nat.ne_of_gt hgt]

theorem house_founds (k : SystemId) : (b.turn .founds).house k = b.house k := by
  rcases Nat.lt_trichotomy k b.houses.length with hlt | rfl | hgt
  · simp [house, turn, List.getElem?_append_left hlt]
  · simp only [house, turn, List.getElem?_concat_length,
      List.getElem?_eq_none (Nat.le_refl b.houses.length)]
    rfl
  · rw [house, house, List.getElem?_eq_none (Nat.le_of_lt hgt), List.getElem?_eq_none]
    simpa [turn] using Nat.succ_le_of_lt hgt

/-- A name that nobody has goes to nobody but the one that gets it. -/
theorem known?_turn_eq_none {t : Turn} (h : b.known? s key = none)
    (ht : ∀ a invocable, t ≠ .lists s key a invocable) : (b.turn t).known? s key = none := by
  cases t with
  | lists k name a invocable =>
    rw [known?_lists_of_ne, h]
    rintro ⟨rfl, rfl⟩
    exact ht a invocable rfl
  | strikes k name => rw [known?_strikes, h, ite_self]
  | wipes k => rw [known?_wipes, h, ite_self]
  | forgets S => rw [known?_forgets, h, ite_self]
  | leaves a => rw [known?_leaves, h, ite_self]
  | founds => rwa [known?, house_founds]
  | joins | binds _ _ | drops _ | shuts _ | waits => exact h

/-- The turns that take a name from an actor. -/
inductive Unseats (s : SystemId) (key : String) (a : ActorId) : Turn → Prop where
  /-- Somebody gets the name. -/
  | lists (c : ActorId) (invocable : Bool) : Unseats s key a (.lists s key c invocable)
  /-- The name is freed. -/
  | strikes : Unseats s key a (.strikes s key)
  /-- The system is terminated. -/
  | wipes : Unseats s key a (.wipes s)
  /-- The system is let go of. -/
  | forgets {S : SystemId → Bool} (hS : S s = true) : Unseats s key a (.forgets S)
  /-- The close of the actor is completed. -/
  | leaves : Unseats s key a (.leaves a)

/-- **Nothing else takes a name from an actor.** -/
theorem known?_turn {t : Turn} {e : Entry} (h : b.known? s key = some e)
    (ht : ¬Unseats s key e.actor t) : (b.turn t).known? s key = some e := by
  cases t with
  | lists k name a invocable =>
    rw [known?_lists_of_ne, h]
    rintro ⟨rfl, rfl⟩
    exact ht (.lists a invocable)
  | strikes k name =>
    rw [known?_strikes, if_neg, h]
    rintro ⟨rfl, rfl⟩
    exact ht .strikes
  | wipes k =>
    rw [known?_wipes, if_neg, h]
    rintro rfl
    exact ht .wipes
  | forgets S =>
    rw [known?_forgets, if_neg, h]
    exact fun hS => ht (.forgets hS.2)
  | leaves a =>
    rw [known?_leaves, if_neg, h]
    rintro ⟨-, -, hleads⟩
    rw [leads_eq, h] at hleads
    obtain rfl : e.actor = a := Option.some.inj hleads
    exact ht .leaves
  | founds => rwa [known?, house_founds]
  | joins | binds _ _ | drops _ | shuts _ | waits => exact h

/-! ### Live systems -/

/-- What clients hold is live, and what nobody holds is forgotten. -/
structure Kept (b : Book) : Prop where
  /-- What clients hold is live. -/
  named : ∀ x ∈ b.names, b.isLive x.2 = true
  /-- The system that an actor remembers is there. -/
  remembered : ∀ {a s key}, (b.post a).registration = some { system := s, key } →
    s < b.houses.length
  /-- Where nobody holds a system, its names lead nowhere. -/
  unheld : ∀ {s key}, b.isLive s = false → b.leads s key = none

/-- Names are given in live systems only, clients keep live systems, and what they hold is not let
go of. -/
def Fair (b : Book) : Turn → Prop
  | .lists s _ _ _ | .binds _ s => b.isLive s = true
  | .forgets S => ∀ x ∈ b.names, S x.2 = false
  | _ => True

/-- Something holds of each turn when it is taken. -/
def Along (P : Book → Turn → Prop) (b : Book) : List Turn → Prop
  | [] => True
  | t :: ts => P b t ∧ (b.turn t).Along P ts

theorem along_append {P : Book → Turn → Prop} {ts us : List Turn} :
    b.Along P (ts ++ us) ↔ b.Along P ts ∧ (b.turns ts).Along P us := by
  induction ts generalizing b with
  | nil => simp [Along, turns]
  | cons t ts ih =>
    rw [List.cons_append, Along, Along, ih, and_assoc]
    rfl

theorem along_of_forall {P : Book → Turn → Prop} {ts : List Turn} (h : ∀ t ∈ ts, ∀ b, P b t) :
    b.Along P ts := by
  induction ts generalizing b with
  | nil => trivial
  | cons t ts ih =>
    exact ⟨h t List.mem_cons_self b, ih fun u hu => h u (List.mem_cons_of_mem _ hu)⟩

theorem Along.and {P Q : Book → Turn → Prop} {ts : List Turn} (hp : b.Along P ts)
    (hq : b.Along Q ts) : b.Along (fun b t => P b t ∧ Q b t) ts := by
  induction ts generalizing b with
  | nil => trivial
  | cons t ts ih => exact ⟨⟨hp.1, hq.1⟩, ih hp.2 hq.2⟩

/-- What a turn keeps, several turns keep. -/
theorem Along.keeps {P : Book → Turn → Prop} {I : Book → Prop}
    (h : ∀ {b t}, I b → P b t → I (b.turn t)) {ts : List Turn} (hb : I b) (hts : b.Along P ts) :
    I (b.turns ts) := by
  induction ts generalizing b with
  | nil => exact hb
  | cons t ts ih => exact ih (h hb hts.1) hts.2

theorem post_lists (s : SystemId) (key : String) (c : ActorId) (invocable : Bool) (a : ActorId) :
    (b.turn (.lists s key c invocable)).post a = if a = c ∧ c < b.posts.length then
      { b.post c with registration := some { system := s, key } } else b.post a :=
  b.post_onPost c a fun p => { p with registration := some { system := s, key } }

/-- A close that begins leaves names and targets alone. -/
theorem post_shuts (c a : ActorId) :
    ((b.turn (.shuts c)).post a).registration = (b.post a).registration ∧
      ((b.turn (.shuts c)).post a).holdsTarget = (b.post a).holdsTarget := by
  have hpost := b.post_onPost c a fun p => { p with closed := true }
  have hturn : (b.turn (.shuts c)).post a = _ := hpost
  rw [hturn]
  split
  · rename_i hc
    rw [hc.1]
    exact ⟨rfl, rfl⟩
  · exact ⟨rfl, rfl⟩

/-- The registration of an actor after a turn. -/
theorem registration_turn {t : Turn} {registration : Registration}
    (h : ((b.turn t).post a).registration = some registration) :
    (b.post a).registration = some registration ∨
      ∃ invocable, t = .lists registration.system registration.key a invocable := by
  cases t with
  | lists s key c invocable =>
    rw [post_lists] at h
    split at h
    · rename_i hc
      obtain ⟨rfl, -⟩ := hc
      cases h
      exact .inr ⟨invocable, rfl⟩
    · exact .inl h
  | leaves c =>
    rw [post_leaves] at h
    split at h
    · cases h
    · exact .inl h
  | shuts c =>
    rw [(post_shuts c a).1] at h
    exact .inl h
  | joins =>
    rw [post_joins] at h
    exact .inl h
  | founds | binds _ _ | drops _ | strikes _ _ | wipes _ | forgets _ | waits => exact .inl h

theorem registration_turns {ts : List Turn} {registration : Registration}
    (h : ((b.turns ts).post a).registration = some registration) :
    (b.post a).registration = some registration ∨
      ∃ invocable, .lists registration.system registration.key a invocable ∈ ts := by
  induction ts generalizing b with
  | nil => exact .inl h
  | cons t ts ih =>
    rcases ih h with h | ⟨invocable, hmem⟩
    · refine (registration_turn h).imp_right ?_
      rintro ⟨invocable, rfl⟩
      exact ⟨invocable, List.mem_cons_self⟩
    · exact .inr ⟨invocable, List.mem_cons_of_mem _ hmem⟩

/-- Only a system that is let go of is no longer live. -/
theorem isLive_turn (t : Turn) (h : b.isLive s = true) :
    (b.turn t).isLive s = true ∨ ∃ S, t = .forgets S ∧ S s = true := by
  cases t with
  | forgets S =>
    rw [isLive_forgets, h, Bool.true_and, Bool.not_eq_true']
    cases hS : S s with
    | true => exact .inr ⟨S, rfl, hS⟩
    | false => exact .inl rfl
  | founds => exact .inl (by rw [isLive_founds, h]; rfl)
  | leaves c => exact .inl (by rw [isLive_leaves, h])
  | lists k name c invocable => exact .inl (by rw [isLive_lists, h])
  | strikes k name => exact .inl (by rw [isLive_strikes, h])
  | wipes k => exact .inl (by rw [isLive_wipes, h])
  | joins | binds _ _ | drops _ | shuts _ | waits => exact .inl h

theorem length_houses_turn (t : Turn) : b.houses.length ≤ (b.turn t).houses.length := by
  cases t with
  | leaves c =>
    show _ ≤ (b.housesWithout c).length
    rw [housesWithout]
    split
    · exact Nat.le_refl _
    · split <;> simp
  | joins | founds | binds _ _ | drops _ | lists _ _ _ _ | strikes _ _ | wipes _ | forgets _
  | shuts _ | waits => simp [turn, onPost, onHouse]

/-- A name that leads somewhere in a system that is not live has been given there. -/
theorem leads_turn_unheld {t : Turn} (ht : b.Fair t) (h : (b.turn t).isLive s = false)
    (hnone : b.isLive s = false → b.leads s key = none) : (b.turn t).leads s key = none := by
  cases t with
  | lists k name c invocable =>
    have hk : s ≠ k := by
      rintro rfl
      rw [(isLive_turn (.lists s name c invocable) ht).resolve_right (by simp)] at h
      cases h
    rw [leads_lists (lt_of_isLive ht), if_neg fun heq => hk heq.1]
    exact hnone (isLive_lists s invocable ▸ h)
  | strikes k name =>
    rw [leads_strikes]
    split
    · rfl
    · exact hnone (isLive_strikes s ▸ h)
  | wipes k =>
    rw [leads_wipes]
    split
    · rfl
    · exact hnone (isLive_wipes s ▸ h)
  | forgets S =>
    rw [leads_forgets]
    split
    · rfl
    · rename_i hcond
      rw [isLive_forgets] at h
      refine hnone ?_
      by_contra hlive
      rw [Bool.not_eq_false] at hlive
      rw [hlive, Bool.true_and, Bool.not_eq_false'] at h
      exact hcond ⟨hlive, h⟩
  | leaves c =>
    rw [leads_leaves]
    split
    · rfl
    · exact hnone (isLive_leaves s ▸ h)
  | founds =>
    rw [isLive_founds, Bool.or_eq_false_iff] at h
    rw [leads, house_founds]
    exact hnone h.1
  | joins | binds _ _ | drops _ | shuts _ | waits => exact hnone h

theorem Kept.turn (h : b.Kept) {t : Turn} (ht : b.Fair t) : (b.turn t).Kept where
  named x hx := by
    -- A name that was there before, or a new one.
    have old : ∀ x ∈ b.names, (b.turn t).isLive x.2 = true := by
      intro y hy
      refine (isLive_turn t (h.named y hy)).resolve_right ?_
      rintro ⟨S, rfl, hS⟩
      have hfair : S y.2 = false := ht y hy
      rw [hfair] at hS
      cases hS
    cases t with
    | binds name k =>
      rcases List.mem_append.mp hx with hx | hx
      · exact old x (List.mem_of_mem_filter hx)
      · rw [List.mem_singleton.mp hx]
        exact ht
    | drops name => exact old x (List.mem_of_mem_filter hx)
    | joins | founds | lists _ _ _ _ | strikes _ _ | wipes _ | forgets _ | shuts _ | waits
    | leaves _ => exact old x hx
  remembered {a k name} hreg := by
    refine Nat.lt_of_lt_of_le ?_ (length_houses_turn t)
    rcases registration_turn hreg with hreg | ⟨invocable, rfl⟩
    · exact h.remembered hreg
    · exact lt_of_isLive ht
  unheld hs := leads_turn_unheld ht hs h.unheld

/-- A system with a name that leads somewhere is live. -/
theorem Kept.live_of_leads (h : b.Kept) (hleads : b.leads s key = some a) : b.isLive s = true := by
  by_contra hlive
  rw [h.unheld (by simpa using hlive)] at hleads
  cases hleads

theorem Kept.letsGo {b' : Book} (h : b.Kept) (hgo : b.LetsGo b') : b'.Kept := by
  obtain ⟨S, hS, rfl⟩ := hgo
  exact h.turn hS

end Book

/-! ### Runs -/

namespace World

variable {w : World} {act : Act} {s : SystemId} {key : String} {a : ActorId}

open Book (Turn)

theorem live_of_systemNamed (hk : w.book.Kept) {name : String} (h : w.systemNamed name = .ok s) :
    w.book.isLive s = true := by
  rw [systemNamed] at h
  cases hl : w.names.systems.lookup name with
  | none => simp [hl] at h
  | some k =>
    obtain rfl : k = s := by simpa [hl] using h
    obtain ⟨l, r, hsplit, _⟩ := List.lookup_eq_some_iff.mp hl
    exact hk.named (name, k) (by rw [show w.book.names = _ from hsplit]; simp)

/-- **Names are given in live systems only.** -/
theorem live_of_registers? (hk : w.book.Kept) (h : w.registers? act = some (s, key, a)) :
    w.book.isLive s = true := by
  unfold registers? at h
  split at h
  · split at h
    · rename_i hsystem
      split at h <;> cases h
      exact live_of_systemNamed hk hsystem
    · cases h
  · split at h
    · split at h
      · rename_i p _ _ k hsystem
        split at h <;> cases h
        obtain ⟨hmap, hheld⟩ := Option.filter_eq_some_iff.mp hsystem
        obtain ⟨⟨k, name⟩, hreg, rfl⟩ := Option.map_eq_some_iff.mp hmap
        have hpost : (w.book.post p).registration = some ⟨k, name⟩ := by
          rw [post_book]
          exact hreg
        rw [Book.isLive_eq (hk.remembered hpost), house_book]
        exact hheld
      · cases h
    · cases h
  · split at h
    · rename_i hsystem _
      split at h <;> cases h
      exact live_of_systemNamed hk hsystem
    · cases h
  · cases h

/-- Something holds of all turns of an act if it holds of those that are about names, and of all
turns of closes. -/
theorem Conduct.along {P : Book → Turn → Prop} {ts : List Turn} (h : w.Conduct act ts)
    (hprelude : ∀ {ts}, w.Prelude act ts → w.book.Along P ts)
    (hcloses : ∀ {b t}, (t = .waits ∨ ∃ a, t = .shuts a ∨ t = .leaves a) → P b t) :
    w.book.Along P ts := by
  obtain ⟨us, vs, rfl, hus, hvs⟩ := h.split
  exact Book.along_append.mpr
    ⟨hprelude hus, Book.along_of_forall fun t ht b => hcloses (hvs t ht)⟩

theorem Prelude.fair {ts : List Turn} (hk : w.book.Kept) (h : w.Prelude act ts) :
    w.book.Along Book.Fair ts := by
  cases h with
  | lists hr _ _ _ => exact ⟨live_of_registers? hk hr, trivial⟩
  | member hr _ _ => exact ⟨trivial, live_of_registers? hk hr, trivial⟩
  | founds _ _ _ =>
    refine ⟨trivial, ?_, trivial⟩
    show (w.book.turn .founds).isLive _ = true
    rw [Book.isLive_founds]
    simp [book]
  | nothing _ _ _ => trivial
  | joins _ _ _ | drops _ _ _ | strikes _ _ _ | wipes _ _ _ => exact ⟨trivial, trivial⟩

/-- All turns of an act are fair. -/
theorem Conduct.fair {ts : List Turn} (hk : w.book.Kept) (h : w.Conduct act ts) :
    w.book.Along Book.Fair ts := by
  refine h.along (Prelude.fair hk) fun ht => ?_
  rcases ht with rfl | ⟨_, rfl | rfl⟩ <;> trivial

theorem kept_next (hs : w.scene.Sound) (hk : w.book.Kept) (act : Act) : (w.next act).book.Kept := by
  obtain ⟨ts, hconduct, hshows⟩ := conduct_next hs act
  exact ((hconduct.fair hk).keeps (fun hb ht => hb.turn ht) hk).letsGo hshows

/-- **The books of runs are kept.** -/
theorem kept_run (acts : List Act) : (run acts).book.Kept := by
  induction acts using List.reverseRecOn with
  | nil =>
    refine ⟨fun x hx => ?_, fun {a s key} h => ?_, fun _ => rfl⟩
    · cases hx
    · cases h
  | append_singleton acts act ih =>
    rw [run_concat]
    exact kept_next (sound_run acts) ih act

end World

end Troupe
