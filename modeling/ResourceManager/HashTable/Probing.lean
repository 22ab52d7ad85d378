import ResourceManager.HashTable.Basic

/-!
# The probing loops

The loops visit the slots `pos cap d 0, pos cap d 1, …` of the cyclic order that starts at
the home slot of `d`. `sondear` finds an element equal to `d` when no empty slot comes
before it (`sondear_hit`). `thInsertarLoop` ends in one of three ways
(`thInsertarLoop_spec`): it has replaced an equal element; it has found a free slot `k`
after examining enough slots to exclude an equal element; or every slot is live.
-/

namespace ResourceManager.HashTable

variable {α : Type} {f : Funciones α}

/-- The `k`-th slot of the probe sequence of `d`. -/
def pos (f : Funciones α) (cap : Nat) (d : α) (k : Nat) : Nat := ((f.hash d).toNat + k) % cap

theorem pos_zero (cap : Nat) (d : α) : pos f cap d 0 = (f.hash d).toNat % cap := rfl

theorem pos_succ (cap : Nat) (d : α) (k : Nat) :
    (pos f cap d k + 1) % cap = pos f cap d (k + 1) := by
  simp only [pos, Nat.mod_add_mod, Nat.add_assoc]

theorem pos_lt {cap : Nat} (hcap : 0 < cap) (d : α) (k : Nat) : pos f cap d k < cap :=
  Nat.mod_lt _ hcap

/-- The first `cap` probes visit every slot. -/
theorem pos_surjective {cap i : Nat} (hi : i < cap) (d : α) :
    ∃ k < cap, pos f cap d k = i := by
  have hh : (f.hash d).toNat % cap < cap := Nat.mod_lt _ (by omega)
  by_cases hle : (f.hash d).toNat % cap ≤ i
  · refine ⟨i - (f.hash d).toNat % cap, by omega, ?_⟩
    rw [pos, ← Nat.mod_add_mod, Nat.add_sub_cancel' hle, Nat.mod_eq_of_lt hi]
  · refine ⟨cap + i - (f.hash d).toNat % cap, by omega, ?_⟩
    have he : (f.hash d).toNat % cap + (cap + i - (f.hash d).toNat % cap) = i + cap := by omega
    rw [pos, ← Nat.mod_add_mod, he, Nat.add_mod_right, Nat.mod_eq_of_lt hi]

/-- A deleted slot stores no datum. -/
def Formada (elems : List (CasillaHash α)) : Prop :=
  ∀ c ∈ elems, c.fdelete = true → c.dato = none

/-! ## The search loop -/

theorem sondear_some {elems : List (CasillaHash α)} {cap : Nat} {d : α} {i : Nat} :
    ∀ {n idx : Nat}, sondear f elems cap d n idx = some i →
      ∃ x, elems[i]? = some ⟨some x, false⟩ ∧ f.comp x d = 0
  | 0, _, h => by simp [sondear] at h
  | n + 1, idx, h => by
    unfold sondear at h
    split at h
    · cases h
    · cases h
    · rename_i x hx
      split at h
      · cases h
        exact ⟨x, hx, by assumption⟩
      · exact sondear_some h
    · exact sondear_some h

theorem sondear_hit {elems : List (CasillaHash α)} {cap : Nat} {d x : α}
    (hcap : 0 < cap) (hlen : elems.length = cap) {k : Nat}
    (hx : elems[pos f cap d k]? = some ⟨some x, false⟩) (hxd : f.comp x d = 0) :
    ∀ {n m : Nat}, m ≤ k → k < m + n →
      (∀ j, m ≤ j → j < k → elems[pos f cap d j]? ≠ some vacia) →
      (sondear f elems cap d n (pos f cap d m)).isSome
  | 0, _, _, hk, _ => by omega
  | n + 1, m, hm, hk, hne => by
    unfold sondear
    have hin : pos f cap d m < elems.length := by rw [hlen]; exact pos_lt hcap d m
    have hnext : m < k → (sondear f elems cap d n ((pos f cap d m + 1) % cap)).isSome := by
      intro hlt
      rw [pos_succ]
      exact sondear_hit hcap hlen hx hxd (by omega) (by omega)
        fun j hj hjk => hne j (by omega) hjk
    rcases Nat.lt_or_ge m k with hlt | hge
    · split
      · rename_i hnone
        rw [List.getElem?_eq_getElem hin] at hnone
        cases hnone
      · rename_i hv
        exact absurd hv (hne m le_rfl hlt)
      · split
        · rfl
        · exact hnext hlt
      · exact hnext hlt
    · have hmk : m = k := by omega
      rw [hmk, hx]
      simp [hxd]

/-! ## The insertion loop -/

/-- The slots of the first `k` probes of `d` are not empty and hold no element equal
to `d`. -/
def Examinadas (f : Funciones α) (elems : List (CasillaHash α)) (cap : Nat) (d : α)
    (k : Nat) : Prop :=
  ∀ j < k, elems[pos f cap d j]? ≠ some vacia ∧
    ∀ x, elems[pos f cap d j]? = some ⟨some x, false⟩ → f.comp x d ≠ 0

/-- What `idxprev` says after `m` probes: the first deleted slot, if there was one. -/
def Prevista (f : Funciones α) (elems : List (CasillaHash α)) (cap : Nat) (d : α) (m : Nat) :
    Option Nat → Prop
  | none => ∀ j < m, ∃ x, elems[pos f cap d j]? = some ⟨some x, false⟩
  | some i => ∃ k < m, i = pos f cap d k ∧ elems[pos f cap d k]? = some ⟨none, true⟩

/-- The three ways in which the insertion loop ends. -/
inductive Resultado (f : Funciones α) (elems : List (CasillaHash α)) (cap : Nat) (d : α) :
    List (CasillaHash α) × Option Nat → Prop
  | actualizado (i : Nat) (x : α) (hx : elems[i]? = some ⟨some x, false⟩)
      (hxd : f.comp x d = 0) :
      Resultado f elems cap d (elems.set i ⟨some d, false⟩, none)
  | nuevo (k K : Nat) (hk : k < cap) (hex : Examinadas f elems cap d K)
      (hend : K = cap ∨ elems[pos f cap d K]? = some vacia)
      (hbefore : ∀ j < k, elems[pos f cap d j]? ≠ some vacia)
      (hfree : ∃ c, elems[pos f cap d k]? = some c ∧ c.dato = none) :
      Resultado f elems cap d (elems, some (pos f cap d k))
  | lleno (hlive : ∀ j < cap, ∃ x, elems[pos f cap d j]? = some ⟨some x, false⟩) :
      Resultado f elems cap d (elems, none)

theorem examinadas_succ {elems : List (CasillaHash α)} {cap m : Nat} {d : α}
    (h : Examinadas f elems cap d m) (hne : elems[pos f cap d m]? ≠ some vacia)
    (hcomp : ∀ x, elems[pos f cap d m]? = some ⟨some x, false⟩ → f.comp x d ≠ 0) :
    Examinadas f elems cap d (m + 1) := by
  intro j hj
  rcases Nat.lt_succ_iff_lt_or_eq.mp hj with hlt | rfl
  · exact h j hlt
  · exact ⟨hne, hcomp⟩

theorem thInsertarLoop_spec {elems : List (CasillaHash α)} {cap : Nat} {d : α}
    (hcap : 0 < cap) (hlen : elems.length = cap) (hform : Formada elems) :
    ∀ (n m : Nat) (idxprev : Option Nat), m + n = cap → Examinadas f elems cap d m →
      Prevista f elems cap d m idxprev →
      Resultado f elems cap d (thInsertarLoop f cap d n (pos f cap d m) elems idxprev)
  | 0, m, none, hm, _, hprev => .lleno fun j hj => hprev j (by omega)
  | 0, m, some i, hm, hex, ⟨k, hk, hi, hd⟩ => by
    subst hi
    exact .nuevo k m (by omega) hex (Or.inl (by omega)) (fun j hj => (hex j (by omega)).1)
      ⟨_, hd, rfl⟩
  | n + 1, m, idxprev, hm, hex, hprev => by
    have hin : pos f cap d m < elems.length := by rw [hlen]; exact pos_lt hcap d m
    unfold thInsertarLoop
    split
    · rename_i hnone
      rw [List.getElem?_eq_getElem hin] at hnone
      cases hnone
    · rename_i hv
      -- the end of the cluster: the new element goes to the first deleted slot, if any
      cases idxprev with
      | none =>
        exact .nuevo m m (by omega) hex (Or.inr hv) (fun j hj => (hex j hj).1) ⟨_, hv, rfl⟩
      | some i =>
        obtain ⟨k, hk, rfl, hd⟩ := hprev
        exact .nuevo k m (by omega) hex (Or.inr hv) (fun j hj => (hex j (by omega)).1)
          ⟨_, hd, rfl⟩
    · rename_i x hx
      split
      · exact .actualizado _ x hx (by assumption)
      · rename_i hne
        rw [pos_succ]
        refine thInsertarLoop_spec hcap hlen hform n (m + 1) idxprev (by omega) ?_ ?_
        · refine examinadas_succ hex (by simp [hx, vacia]) fun y hy => ?_
          rw [hx] at hy
          cases hy
          exact hne
        · cases idxprev with
          | none =>
            intro j hj
            rcases Nat.lt_succ_iff_lt_or_eq.mp hj with hlt | rfl
            · exact hprev j hlt
            · exact ⟨x, hx⟩
          | some i =>
            obtain ⟨k, hk, hi, hd⟩ := hprev
            exact ⟨k, by omega, hi, hd⟩
    · rename_i dato hdel
      have hdato : dato = none := hform _ (List.mem_of_getElem? hdel) rfl
      subst hdato
      rw [pos_succ]
      refine thInsertarLoop_spec hcap hlen hform n (m + 1) _ (by omega) ?_ ?_
      · exact examinadas_succ hex (by simp [hdel, vacia]) fun y hy => by
          rw [hdel] at hy
          cases hy
      · cases idxprev with
        | none => exact ⟨m, by omega, rfl, hdel⟩
        | some i =>
          obtain ⟨k, hk, hi, hd⟩ := hprev
          exact ⟨k, by omega, hi, hd⟩

end ResourceManager.HashTable
