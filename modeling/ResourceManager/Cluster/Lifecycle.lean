import ResourceManager.Cluster.System

/-!
# The life of one job

An abstract model of a job of one coordinator, over the whole cluster: how many of its
petitions have been granted (`done`), where the petition that follows is (`Place`), what
the nodes reserve for the job, and the RELEASEs in flight. There is at most one petition on
its way; that is what makes the order of the request the order of acquisition.

A step is anything that can happen to the job: a message delivered, a request woken at a
node, the end of the job at its coordinator. `Rules` are the parameters: the totals of the
nodes, the requests that the schedulers make, and the condition under which a coordinator
abandons a job.
-/

namespace ResourceManager

/-- Where the petition in progress is, if it is anywhere: on its way to the node, in the
queue of the node, or answered with the answer on its way back. -/
inductive Place where
  | nowhere
  | sent (p : ResourceToken)
  | queued (p : ResourceToken)
  | granted (p : ResourceToken)
  | denied (p : ResourceToken)

namespace Place

def petition : Place → Option ResourceToken
  | nowhere => none
  | sent p | queued p | granted p | denied p => some p

/-- The node may have granted the petition. -/
def mayHold : Place → Prop
  | nowhere | granted _ => True
  | sent _ | queued _ | denied _ => False

/-- A petition is sent. -/
def next : Option ResourceToken → Place
  | none => nowhere
  | some p => sent p

theorem petition_next (p : Option ResourceToken) : (next p).petition = p := by cases p <;> rfl

end Place

structure JobState where
  asked : Option (List ResourceToken)
  /-- The coordinator has a record of the job. -/
  present : Bool
  done : Nat
  place : Place
  /-- The quantity that a node reserves. -/
  held : NodeResource → Option UInt32
  /-- The nodes to which a RELEASE is on its way. -/
  releases : List Addr

namespace JobState

/-- A job not yet asked for. -/
def initial : JobState := ⟨none, false, 0, .nowhere, fun _ => none, []⟩

/-- The petitions of the request that the coordinator stores. -/
def petitions (b : JobState) : List ResourceToken := (b.asked.getD []).take maxJobResources

/-- The coordinator forgets the job, with a RELEASE for each granted petition. -/
def abandon (b : JobState) : JobState :=
  { b with
    present := false
    releases := b.releases ++
      if b.present then (b.petitions.take b.done).map fun p => p.target.addr else [] }

/-- The node of `p` reserves what it asks for. -/
def reserve (b : JobState) (p : ResourceToken) : JobState :=
  { b with held := Function.update b.held p.target (some p.cant) }

end JobState

structure Rules where
  total : NodeResource → UInt32
  admissible : List ResourceToken → Prop
  mayAbandon : JobState → Prop

inductive JobStep (R : Rules) : JobState → JobState → Prop
  | register (b tokens) (hnew : b.asked = none) (hok : R.admissible tokens) :
      JobStep R b { b with
        asked := some tokens
        present := true
        done := 0
        place := .next (tokens.take maxJobResources)[0]? }
  | refuse (b p) (h : b.place = .sent p) : JobStep R b { b with place := .denied p }
  | enqueue (b p) (h : b.place = .sent p) (hfit : p.cant ≤ R.total p.target) :
      JobStep R b { b with place := .queued p }
  | grant (b p) (h : b.place = .sent p) (hfit : p.cant ≤ R.total p.target) :
      JobStep R b { b.reserve p with place := .granted p }
  /-- The answer of a request that was woken can be lost: the outbox is bounded, and an id
  that reads as `-1` is not announced. -/
  | wake (b p place) (h : b.place = .queued p) (hplace : place = .granted p ∨ place = .nowhere) :
      JobStep R b { b.reserve p with place := place }
  | accept (b p) (h : b.place = .granted p) (hpresent : b.present = true) :
      JobStep R b { b with done := b.done + 1, place := .next b.petitions[b.done + 1]? }
  | ignore (b p) (h : b.place = .granted p) : JobStep R b { b with place := .nowhere }
  | deny (b p) (h : b.place = .denied p) : JobStep R b { b.abandon with place := .nowhere }
  | abandon (b) (h : b.present = true → R.mayAbandon b) : JobStep R b b.abandon
  | release (b l₁ a l₂) (h : b.releases = l₁ ++ a :: l₂) :
      JobStep R b { b with
        releases := l₁ ++ l₂
        held := fun r => if r.addr = a then none else b.held r }

abbrev JobSteps (R : Rules) : JobState → JobState → Prop := Relation.ReflTransGen (JobStep R)

/-! ## What holds of every job -/

/-- The node of a petition holds, or may hold, what it asked for: petitions granted, and
the one in progress once the node has answered. -/
def JobState.Reached (R : Rules) (b : JobState) (i : Nat) (p : ResourceToken) : Prop :=
  i < b.done ∨ i = b.done ∧ b.place.mayHold ∧ p.cant ≤ R.total p.target

structure Sound (R : Rules) (b : JobState) : Prop where
  done_le : b.done ≤ b.petitions.length
  petition : ∀ p, b.place.petition = some p → b.petitions[b.done]? = some p
  queued : ∀ p, b.place = .queued p → p.cant ≤ R.total p.target
  held : ∀ r q, b.held r = some q →
    ∃ i p, b.petitions[i]? = some p ∧ p.target = r ∧ b.Reached R i p
  released : ∀ a ∈ b.releases,
    b.present = false ∧ ∃ p ∈ b.petitions.take b.done, p.target.addr = a
  unasked : b.asked = none → b.present = false
  asked : ∀ tokens, b.asked = some tokens → R.admissible tokens

namespace Sound

variable {R : Rules} {b : JobState}

theorem initial : Sound R JobState.initial where
  done_le := Nat.zero_le _
  petition p h := by cases h
  queued p h := by cases h
  held r q h := by cases h
  released a h := by cases h
  unasked _ := rfl
  asked tokens h := by cases h

/-- A job not asked for is in its initial state, but for `done`. -/
theorem nothing (h : Sound R b) (hnew : b.asked = none) :
    b.present = false ∧ b.place = .nowhere ∧ (∀ r, b.held r = none) ∧ b.releases = [] := by
  have hps : b.petitions = [] := by rw [JobState.petitions, hnew]; rfl
  refine ⟨h.unasked hnew, ?_, fun r => ?_, ?_⟩
  · cases hplace : b.place with
    | nowhere => rfl
    | sent p | queued p | granted p | denied p =>
      have := h.petition p (by rw [hplace]; rfl)
      rw [hps] at this
      cases this
  · cases hheld : b.held r with
    | none => rfl
    | some q =>
      obtain ⟨i, p, hp, _⟩ := h.held r q hheld
      rw [hps] at hp
      cases hp
  · rw [List.eq_nil_iff_forall_not_mem]
    intro a ha
    obtain ⟨_, p, hp, _⟩ := h.released a ha
    rw [hps, List.take_nil] at hp
    cases hp

theorem done_lt (h : Sound R b) {p : ResourceToken} (hp : b.place.petition = some p) :
    b.done < b.petitions.length := (List.getElem?_eq_some_iff.mp (h.petition p hp)).1

/-- A petition reserved under the place `place` of the petition in progress. -/
theorem reserve (h : Sound R b) {p : ResourceToken} {place : Place}
    (hp : b.place.petition = some p) (hfit : p.cant ≤ R.total p.target)
    (hnot : ¬ b.place.mayHold) (hplace : place = .granted p ∨ place = .nowhere) :
    Sound R { b.reserve p with place := place } where
  done_le := h.done_le
  petition q hq := by
    rcases hplace with rfl | rfl
    · cases hq
      exact h.petition p hp
    · cases hq
  queued q hq := by
    rcases hplace with rfl | rfl <;> cases hq
  held r q hheld := by
    by_cases hr : r = p.target
    · subst hr
      refine ⟨b.done, p, h.petition p hp, rfl, Or.inr ⟨rfl, ?_, hfit⟩⟩
      rcases hplace with rfl | rfl <;> trivial
    · have hold : b.held r = some q := by
        rw [← hheld]
        exact (Function.update_of_ne hr _ _).symm
      obtain ⟨i, p', hp', ht, hreached⟩ := h.held r q hold
      refine ⟨i, p', hp', ht, ?_⟩
      rcases hreached with hlt | ⟨_, hmay, _⟩
      · exact Or.inl hlt
      · exact absurd hmay hnot
  released := h.released
  unasked := h.unasked
  asked := h.asked

theorem abandon (h : Sound R b) : Sound R b.abandon where
  done_le := h.done_le
  petition := h.petition
  queued := h.queued
  held := h.held
  released a ha := by
    refine ⟨rfl, ?_⟩
    rcases List.mem_append.mp ha with ha | ha
    · exact (h.released a ha).2
    · split at ha
      · obtain ⟨p, hp, he⟩ := List.mem_map.mp ha
        exact ⟨p, hp, he⟩
      · cases ha
  unasked _ := rfl
  asked := h.asked

/-- The petition in progress leaves its place, when that does not make it held. -/
theorem setPlace (h : Sound R b) {place : Place}
    (hp : ∀ p, place.petition = some p → b.place.petition = some p)
    (hq : ∀ p, place = .queued p → p.cant ≤ R.total p.target)
    (hmay : b.place.mayHold → place.mayHold) : Sound R { b with place := place } where
  done_le := h.done_le
  petition p hp' := h.petition p (hp p hp')
  queued := hq
  held r q hheld := by
    obtain ⟨i, p, hp', ht, hreached⟩ := h.held r q hheld
    refine ⟨i, p, hp', ht, ?_⟩
    rcases hreached with hlt | ⟨hi, hm, hle⟩
    · exact Or.inl hlt
    · exact Or.inr ⟨hi, hmay hm, hle⟩
  released := h.released
  unasked := h.unasked
  asked := h.asked

theorem step {b b' : JobState} (h : Sound R b) (hstep : JobStep R b b') : Sound R b' := by
  cases hstep with
  | register tokens hnew hok =>
    obtain ⟨_, _, hheld, hreleases⟩ := h.nothing hnew
    refine ⟨Nat.zero_le _, fun p hp => ?_, fun p hp => ?_, fun r q hr => ?_, fun a ha => ?_,
      fun h' => (by cases h'), fun ts hts => ?_⟩
    · rw [Place.petition_next] at hp
      exact hp
    · exact absurd hp (by cases (tokens.take maxJobResources)[0]? <;> simp [Place.next])
    · rw [hheld r] at hr
      cases hr
    · rw [hreleases] at ha
      cases ha
    · cases hts
      exact hok
  | refuse p hp =>
    refine h.setPlace (fun q hq => ?_) (fun q hq => by cases hq) fun hm => ?_
    · rw [hp]
      exact hq
    · rw [hp] at hm
      exact hm
  | enqueue p hp hfit =>
    refine h.setPlace (fun q hq => ?_) (fun q hq => ?_) fun hm => ?_
    · rw [hp]
      exact hq
    · cases hq
      exact hfit
    · rw [hp] at hm
      exact hm
  | grant p hp hfit =>
    exact h.reserve (by rw [hp]; rfl) hfit (by rw [hp]; exact id) (Or.inl rfl)
  | wake p place hp hplace =>
    exact h.reserve (by rw [hp]; rfl) (h.queued p hp) (by rw [hp]; exact id) hplace
  | accept p hp hpresent =>
    have hlt := h.done_lt (p := p) (by rw [hp]; rfl)
    refine ⟨hlt, fun p hp => ?_, fun p hp => ?_, fun r q hr => ?_, fun a ha => ?_, h.unasked,
      h.asked⟩
    · rw [Place.petition_next] at hp
      exact hp
    · exact absurd hp (by cases b.petitions[b.done + 1]? <;> simp [Place.next])
    · obtain ⟨i, p', hp', ht, hreached⟩ := h.held r q hr
      refine ⟨i, p', hp', ht, Or.inl ?_⟩
      show i < b.done + 1
      rcases hreached with hlt | ⟨hi, _⟩ <;> omega
    · have := (h.released a ha).1
      rw [hpresent] at this
      cases this
  | ignore p hp =>
    refine h.setPlace (fun q hq => by cases hq) (fun q hq => by cases hq) fun _ => trivial
  | deny p hp =>
    refine h.abandon.setPlace (fun q hq => by cases hq) (fun q hq => by cases hq) fun _ => trivial
  | abandon _ => exact h.abandon
  | release l₁ a l₂ hr =>
    refine ⟨h.done_le, h.petition, h.queued, fun r q hq => ?_, fun a' ha' => ?_, h.unasked,
      h.asked⟩
    · dsimp only at hq
      split at hq
      · cases hq
      · exact h.held r q hq
    · refine h.released a' ?_
      rw [hr]
      rcases List.mem_append.mp ha' with ha' | ha'
      · exact List.mem_append_left _ ha'
      · exact List.mem_append_right _ (List.mem_cons_of_mem a ha')

theorem steps {b b' : JobState} (h : Sound R b) (hsteps : JobSteps R b b') : Sound R b' := by
  induction hsteps with
  | refl => exact h
  | tail _ hstep ih => exact ih.step hstep

end Sound

/-- A property that each step keeps, of sound states, holds after any steps. -/
theorem JobSteps.invariant {R : Rules} {I : JobState → Prop}
    (hstep : ∀ b b', Sound R b → I b → JobStep R b b' → I b') {b b' : JobState}
    (hb : Sound R b) (hI : I b) (h : JobSteps R b b') : I b' := by
  induction h with
  | refl => exact hI
  | tail hsteps hlast ih => exact hstep _ _ (hb.steps hsteps) ih hlast

/-! ## Order -/

/-- What a job holds comes before what it waits for in its request. -/
theorem Sound.held_before {R : Rules} {b : JobState} (h : Sound R b) {r : NodeResource}
    {q : UInt32} (hr : b.held r = some q) {p : ResourceToken}
    (hp : b.place = .sent p ∨ b.place = .queued p) :
    ∃ i p', i < b.done ∧ b.petitions[i]? = some p' ∧ p'.target = r ∧
      b.petitions[b.done]? = some p := by
  obtain ⟨i, p', hp', ht, hreached⟩ := h.held r q hr
  have hnot : ¬ b.place.mayHold := by
    rcases hp with hp | hp <;> rw [hp] <;> exact id
  have hpet : b.place.petition = some p := by
    rcases hp with hp | hp <;> rw [hp] <;> rfl
  rcases hreached with hlt | ⟨_, hmay, _⟩
  · exact ⟨i, p', hlt, hp', ht, h.petition p hpet⟩
  · exact absurd hmay hnot

/-! ## Grants -/

/-- Every petition that the coordinator has marked, and the one whose GRANTED is on its
way, is reserved at its node with its quantity. -/
def Backed (b : JobState) : Prop :=
  b.present = true → ∀ i p, b.petitions[i]? = some p →
    (i < b.done ∨ i = b.done ∧ b.place = .granted p) → b.held p.target = some p.cant

/-- The reservation of the petition in progress leaves those of the petitions before. -/
theorem Backed.reserve {R : Rules} {b : JobState} (h : Backed b) (hs : Sound R b)
    (hnd : (b.petitions.map ResourceToken.target).Nodup) {p : ResourceToken} {place : Place}
    (hp : b.place.petition = some p) (hplace : place = .granted p ∨ place = .nowhere) :
    Backed { b.reserve p with place := place } := by
  intro hpresent i p' hp' hi
  have hget := hs.petition p hp
  show Function.update b.held p.target (some p.cant) p'.target = some p'.cant
  rcases hi with hi | ⟨rfl, hplace'⟩
  · have hne : p'.target ≠ p.target := by
      intro he
      have hlt := (List.getElem?_eq_some_iff.mp hp').1
      have hi' : i = b.done := (List.getElem?_inj (by rwa [List.length_map]) hnd).mp (by
        rw [List.getElem?_map, List.getElem?_map]
        change b.petitions[i]? = some p' at hp'
        rw [hp', hget, Option.map_some, Option.map_some, he])
      exact absurd hi' (Nat.ne_of_lt hi)
    rw [Function.update_of_ne hne]
    exact h hpresent i p' hp' (Or.inl hi)
  · change place = .granted p' at hplace'
    rcases hplace with rfl | rfl
    · cases hplace'
      exact Function.update_self _ _ _
    · cases hplace'

theorem Backed.step {R : Rules}
    (hR : ∀ tokens, R.admissible tokens → (tokens.map ResourceToken.target).Nodup)
    {b b' : JobState} (hs : Sound R b) (h : Backed b) (hstep : JobStep R b b') : Backed b' := by
  have hnd : (b.petitions.map ResourceToken.target).Nodup := by
    unfold JobState.petitions
    cases hasked : b.asked with
    | none => simp
    | some tokens =>
      have := hR tokens (hs.asked tokens hasked)
      rw [Option.getD_some, List.map_take]
      exact this.sublist (List.take_sublist _ _)
  cases hstep with
  | register tokens hnew hok =>
    rintro _ i p _ (hi | ⟨_, hplace⟩)
    · exact absurd hi (Nat.not_lt_zero i)
    · exact absurd hplace (by cases (tokens.take maxJobResources)[0]? <;> simp [Place.next])
  | refuse p hp | enqueue p hp _ | ignore p hp =>
    rintro hpresent i p' hp' (hi | ⟨_, hplace⟩)
    · exact h hpresent i p' hp' (Or.inl hi)
    · cases hplace
  | grant p hp _ => exact h.reserve hs hnd (by rw [hp]; rfl) (Or.inl rfl)
  | wake p place hp hplace => exact h.reserve hs hnd (by rw [hp]; rfl) hplace
  | accept p hp _ =>
    rintro hpresent i p' hp' (hi | ⟨_, hplace⟩)
    · refine h hpresent i p' hp' ?_
      by_cases hlt : i < b.done
      · exact Or.inl hlt
      · have hi' : i = b.done := by
          change i < b.done + 1 at hi
          omega
        have hget := hs.petition p (by rw [hp]; rfl)
        rw [← hi'] at hget
        have he : p = p' := Option.some.inj (hget.symm.trans hp')
        exact Or.inr ⟨hi', he ▸ hp⟩
    · exact absurd hplace (by cases b.petitions[b.done + 1]? <;> simp [Place.next])
  | deny p hp => exact fun hpresent => by cases hpresent
  | abandon _ => exact fun hpresent => by cases hpresent
  | release l₁ a l₂ hr =>
    intro hpresent
    have := (hs.released a (by rw [hr]; simp)).1
    rw [show b.present = true from hpresent] at this
    cases this

/-! ## The end of a job -/

/-- Of a job that its coordinator has forgotten nothing waits, nothing will wait, and what
is reserved will be released. -/
structure Covered (R : Rules) (b : JobState) : Prop where
  queued : ∀ p, b.place ≠ .queued p
  sent : ∀ p, b.place = .sent p → R.total p.target < p.cant
  held : ∀ r q, b.held r = some q → r.addr ∈ b.releases

/-- A job can be abandoned without a trace: its petition in progress will be refused, or
the node has answered it and, if it reserved something, gets a RELEASE for a petition
granted before. -/
def Settled (total : NodeResource → UInt32) (b : JobState) : Prop :=
  ∀ p, b.petitions[b.done]? = some p → total p.target < p.cant ∨
    b.place ≠ .sent p ∧ b.place ≠ .queued p ∧
      (b.held p.target ≠ none → ∃ p' ∈ b.petitions.take b.done, p'.target.addr = p.target.addr)

theorem JobState.mem_releases_abandon {b : JobState} {i : Nat} {p : ResourceToken}
    (hp : b.petitions[i]? = some p) (hi : i < b.done) (hpresent : b.present = true) :
    p.target.addr ∈ b.abandon.releases := by
  refine List.mem_append_right _ ?_
  rw [if_pos hpresent]
  refine List.mem_map.mpr ⟨p, ?_, rfl⟩
  refine List.mem_of_getElem? (i := i) ?_
  rw [List.getElem?_take_of_lt hi]
  exact hp

theorem Covered.abandon {R : Rules} {b : JobState} (hs : Sound R b) (hpresent : b.present = true)
    (h : Settled R.total b) : Covered R b.abandon where
  queued p hp := by
    rcases h p (hs.petition p (by rw [show b.place = .queued p from hp]; rfl)) with hlt | h
    · exact absurd (UInt32.lt_of_lt_of_le hlt (hs.queued p hp)) (UInt32.lt_irrefl _)
    · exact h.2.1 hp
  sent p hp := by
    rcases h p (hs.petition p (by rw [show b.place = .sent p from hp]; rfl)) with hlt | h
    · exact hlt
    · exact absurd hp h.1
  held r q hr := by
    obtain ⟨i, p, hp, rfl, hi | ⟨rfl, _, hle⟩⟩ := hs.held r q hr
    · exact JobState.mem_releases_abandon hp hi hpresent
    · rcases h p hp with hlt | ⟨_, _, hreleased⟩
      · exact absurd (UInt32.lt_of_lt_of_le hlt hle) (UInt32.lt_irrefl _)
      · obtain ⟨p', hp', he⟩ := hreleased (by rw [show b.held p.target = some q from hr]; simp)
        refine List.mem_append_right _ ?_
        rw [if_pos hpresent]
        exact List.mem_map.mpr ⟨p', hp', he⟩

theorem Covered.step {R : Rules} (hR : ∀ b, R.mayAbandon b → Settled R.total b)
    {b b' : JobState} (hs : Sound R b)
    (h : b.asked ≠ none → b.present = false → Covered R b) (hstep : JobStep R b b') :
    b'.asked ≠ none → b'.present = false → Covered R b' := by
  intro hasked habsent
  cases hstep with
  | register tokens hnew hok => cases habsent
  | refuse p hp =>
    exact ⟨fun q hq => (by cases hq), fun q hq => (by cases hq), (h hasked habsent).held⟩
  | enqueue p hp hfit | grant p hp hfit =>
    have hlt := (h hasked habsent).sent p hp
    exact absurd (UInt32.lt_of_lt_of_le hlt hfit) (UInt32.lt_irrefl _)
  | wake p place hp _ => exact absurd hp ((h hasked habsent).queued p)
  | accept p hp hpresent =>
    rw [show b.present = false from habsent] at hpresent
    cases hpresent
  | ignore p hp =>
    exact ⟨fun q hq => (by cases hq), fun q hq => (by cases hq), (h hasked habsent).held⟩
  | deny p hp =>
    refine ⟨fun q hq => (by cases hq), fun q hq => (by cases hq), fun r q hr => ?_⟩
    cases hpresent : b.present with
    | true =>
      obtain ⟨i, p', hp', rfl, hi | ⟨_, hmay, _⟩⟩ := hs.held r q hr
      · exact JobState.mem_releases_abandon hp' hi hpresent
      · rw [hp] at hmay
        exact hmay.elim
    | false => exact List.mem_append_left _ ((h hasked hpresent).held r q hr)
  | abandon hmay =>
    cases hpresent : b.present with
    | true => exact Covered.abandon hs hpresent (hR b (hmay hpresent))
    | false =>
      have hb := h hasked hpresent
      exact ⟨hb.queued, hb.sent, fun r q hr => List.mem_append_left _ (hb.held r q hr)⟩
  | release l₁ a l₂ hr =>
    have hb := h hasked habsent
    refine ⟨hb.queued, hb.sent, fun r q hq => ?_⟩
    dsimp only at hq
    split at hq
    · cases hq
    · rename_i hne
      have hmem := hb.held r q hq
      rw [hr] at hmem
      rcases List.mem_append.mp hmem with hmem | hmem
      · exact List.mem_append_left _ hmem
      · rcases List.mem_cons.mp hmem with he | hmem
        · exact absurd he hne
        · exact List.mem_append_right _ hmem

end ResourceManager
