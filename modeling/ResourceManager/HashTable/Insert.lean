import ResourceManager.HashTable.Valid

/-!
# Insertion and resizing

`thInsertarCon_spec` describes one pass of `th_insertar` before its load test: the element
equal to `d`, if any, is forgotten and `d` is stored. A resize reinserts at most
`capacidad` elements into twice as many slots, so no load test inside it succeeds
(`redimensionar_spec`) and one level of recursion is enough (`insertar_spec`).
-/

namespace ResourceManager.HashTable

open Library.KeyedList

variable {α : Type} {f : Funciones α}

/-- An examined probe sequence that ends in an empty slot, or covers the table, excludes
an equal element. -/
theorem find_none_of_examinadas [Legal f] {t : TablaHash f} (h : Coherente t) {d : α} {K : Nat}
    (hex : Examinadas f t.elems t.capacidad d K)
    (hend : K = t.capacidad ∨ t.elems[pos f t.capacidad d K]? = some vacia) :
    find (Igual f) t.datos d = none := by
  rw [find_none]
  intro y hy hyd
  obtain ⟨p, hp⟩ := (mem_datos h.formada).mp hy
  obtain ⟨k, hk, hpos, hch⟩ := h.cadena p y hp
  rw [pos_congr hyd] at hpos
  have hkK : k < K := by
    rcases hend with rfl | hv
    · exact hk
    · by_contra hge
      rcases Nat.lt_or_ge K k with hlt | hle
      · exact hch K hlt (by rw [pos_congr hyd]; exact hv)
      · have hKk : K = k := by omega
        rw [hKk, hpos, hp] at hv
        cases hv
  exact (hex k hkK).2 y (hpos ▸ hp) hyd

/-- A table with fewer elements than slots has a slot that is not live. -/
theorem not_lleno {t : TablaHash f} (h : Coherente t) (hroom : t.numElems < t.capacidad) (d : α) :
    ¬ ∀ j < t.capacidad, ∃ x, t.elems[pos f t.capacidad d j]? = some ⟨some x, false⟩ := by
  intro hlive
  have hall : ∀ c ∈ t.elems, (CasillaHash.dato c).isSome := by
    intro c hc
    obtain ⟨i, hi⟩ := List.mem_iff_getElem?.mp hc
    have hlt : i < t.capacidad := h.longitud ▸ (List.getElem?_eq_some_iff.mp hi).1
    obtain ⟨k, hk, rfl⟩ := pos_surjective (f := f) hlt d
    obtain ⟨x, hx⟩ := hlive k hk
    rw [hx] at hi
    cases hi
    rfl
  have hlen : t.datos.length = t.elems.length := List.filterMap_length_eq_length.mpr hall
  have := h.cuenta
  have := h.longitud
  omega

/-- The table after a write of `d` into slot `i`, whose probe chain is intact. -/
theorem coherente_escribir [Legal f] {t : TablaHash f} (h : Coherente t) {d : α} {i n : Nat}
    (hi : i < t.capacidad)
    (hcuenta : n = ((t.elems.set i ⟨some d, false⟩).filterMap CasillaHash.dato).length)
    (hunicos : Distinct (Igual f) ((t.elems.set i ⟨some d, false⟩).filterMap CasillaHash.dato))
    (hchain : ∃ k < t.capacidad, pos f t.capacidad d k = i ∧
      ∀ j < k, t.elems[pos f t.capacidad d j]? ≠ some vacia) :
    Coherente (f := f) { t with elems := t.elems.set i ⟨some d, false⟩, numElems := n } := by
  refine ⟨by simpa using h.longitud, h.positiva, formada_set h.formada i (by simp), hcuenta,
    hunicos, ?_⟩
  intro p y hy
  by_cases hp : p = i
  · subst hp
    simp only [List.getElem?_set_self (h.longitud ▸ hi)] at hy
    cases hy
    obtain ⟨k, hk, hpos, hch⟩ := hchain
    exact ⟨k, hk, hpos, fun j hj hv => hch j hj (vacia_of_set (by simp [vacia]) hv)⟩
  · exact cadena_set h (by simp [vacia]) hp hy

/-- One pass of `th_insertar`, with the resize left open. -/
theorem thInsertarCon_spec [Legal f] {t : TablaHash f} (h : Coherente t)
    (hroom : t.numElems < t.capacidad) (d : α) :
    ∃ t', Coherente t' ∧ t'.capacidad = t.capacidad ∧
      t'.datos.Perm (d :: erase (Igual f) t.datos d) ∧
      ((t'.numElems = t.numElems ∧ ∀ red, thInsertarCon red t d = some t') ∨
        (t'.numElems = t.numElems + 1 ∧ ∀ red, thInsertarCon red t d =
          if 7 * t'.capacidad < 10 * t'.numElems then red t' else some t')) := by
  have hres := thInsertarLoop_spec (f := f) (d := d) h.positiva h.longitud h.formada
    t.capacidad 0 none (by omega) (fun j hj => by omega) (fun j hj => by omega)
  rw [pos_zero] at hres
  generalize hr : thInsertarLoop f t.capacidad d t.capacidad ((f.hash d).toNat % t.capacidad)
    t.elems none = r at hres
  cases hres with
  | actualizado i x hx hxd =>
    obtain ⟨l₁, l₂, hl, hset⟩ := split_at hx
    have hd : t.datos = l₁.filterMap CasillaHash.dato ++ x :: l₂.filterMap CasillaHash.dato := by
      rw [TablaHash.datos, hl]
      simp
    have hd' : (t.elems.set i ⟨some d, false⟩).filterMap CasillaHash.dato =
        l₁.filterMap CasillaHash.dato ++ d :: l₂.filterMap CasillaHash.dato := by
      rw [hset]
      simp
    have hperm : ((t.elems.set i ⟨some d, false⟩).filterMap CasillaHash.dato).Perm
        (d :: erase (Igual f) t.datos d) := by
      rw [hd', hd, erase_append_cons Legal.equiv (hd ▸ h.unicos) hxd]
      exact List.perm_middle
    obtain ⟨k, hk, hpos, hch⟩ := h.cadena i x hx
    refine ⟨{ t with elems := t.elems.set i ⟨some d, false⟩ }, ?_, rfl, hperm, Or.inl ⟨rfl, ?_⟩⟩
    · refine coherente_escribir h (h.longitud ▸ (List.getElem?_eq_some_iff.mp hx).1) ?_ ?_ ?_
      · rw [hd', h.cuenta, hd]
        simp
      · exact distinct_perm Legal.equiv hperm.symm (distinct_put Legal.equiv h.unicos d)
      · exact ⟨k, hk, by rw [← pos_congr hxd, hpos],
          fun j hj => by rw [← pos_congr hxd]; exact hch j hj⟩
    · intro red
      simp only [thInsertarCon, hr]
  | nuevo k K hk hex hend hbefore hfree =>
    obtain ⟨⟨dato, fdelete⟩, hc, hnone⟩ := hfree
    simp only at hnone
    subst hnone
    have hfind := find_none_of_examinadas h hex hend
    obtain ⟨l₁, l₂, hl, hset⟩ := split_at hc
    have hd : t.datos = l₁.filterMap CasillaHash.dato ++ l₂.filterMap CasillaHash.dato := by
      rw [TablaHash.datos, hl]
      simp
    have hd' : (t.elems.set (pos f t.capacidad d k) ⟨some d, false⟩).filterMap CasillaHash.dato =
        l₁.filterMap CasillaHash.dato ++ d :: l₂.filterMap CasillaHash.dato := by
      rw [hset]
      simp
    have hperm : ((t.elems.set (pos f t.capacidad d k) ⟨some d, false⟩).filterMap
        CasillaHash.dato).Perm (d :: erase (Igual f) t.datos d) := by
      rw [hd', erase_of_find_none hfind, hd]
      exact List.perm_middle
    refine ⟨{ t with
      elems := t.elems.set (pos f t.capacidad d k) ⟨some d, false⟩,
      numElems := t.numElems + 1 }, ?_, rfl, hperm, Or.inr ⟨rfl, ?_⟩⟩
    · refine coherente_escribir h (pos_lt h.positiva d k) ?_ ?_ ⟨k, hk, rfl, hbefore⟩
      · rw [hd', h.cuenta, hd]
        simp only [List.length_append, List.length_cons]
        omega
      · exact distinct_perm Legal.equiv hperm.symm (distinct_put Legal.equiv h.unicos d)
    · intro red
      simp only [thInsertarCon, hr]
  | lleno hlive => exact absurd hlive (not_lleno h hroom d)

/-- The insertion of a new element below the load limit, whatever the resize would be. -/
theorem thInsertar_below [Legal f] {t : TablaHash f} (h : Coherente t)
    (hload : 10 * (t.numElems + 1) ≤ 7 * t.capacidad) (d : α) :
    ∃ t', Coherente t' ∧ t'.capacidad = t.capacidad ∧
      t'.datos.Perm (d :: erase (Igual f) t.datos d) ∧ ∀ n, thInsertar n t d = some t' := by
  obtain ⟨t', h', hcap, hperm, hcase⟩ := thInsertarCon_spec h (by omega) d
  have hrun : ∀ red, thInsertarCon red t d = some t' := by
    rcases hcase with ⟨_, hrun⟩ | ⟨hnum, hrun⟩
    · exact hrun
    · intro red
      rw [hrun red, if_neg (by omega)]
  refine ⟨t', h', hcap, hperm, fun n => ?_⟩
  cases n with
  | zero => exact hrun _
  | succ n => exact hrun _

/-- The reinsertion loop of a resize: `resto` are the slots still to be copied. -/
theorem reinsertar_spec [Legal f] (cap : Nat) :
    ∀ (resto : List (CasillaHash α)) (t : TablaHash f), Coherente t → t.capacidad = cap * 2 →
      Distinct (Igual f) (t.datos ++ resto.filterMap CasillaHash.dato) →
      t.datos.length + (resto.filterMap CasillaHash.dato).length ≤ cap →
      ∃ t', Coherente t' ∧ t'.capacidad = cap * 2 ∧
        t'.datos.Perm (t.datos ++ resto.filterMap CasillaHash.dato) ∧
        ∀ n, resto.foldlM (fun tabla casilla =>
          match casilla.dato with
          | some x => thInsertar n tabla x
          | none => some tabla) t = some t'
  | [], t, h, hcap, _, _ => ⟨t, h, hcap, by simp, fun n => rfl⟩
  | ⟨none, fdelete⟩ :: resto, t, h, hcap, hdist, hlen => by
    obtain ⟨t', h', hcap', hperm, hrun⟩ := reinsertar_spec cap resto t h hcap hdist hlen
    exact ⟨t', h', hcap', hperm, fun n => hrun n⟩
  | ⟨some x, fdelete⟩ :: resto, t, h, hcap, hdist, hlen => by
    simp only [List.filterMap_cons, List.length_cons] at hdist hlen
    have hcount := h.cuenta
    obtain ⟨t₁, h₁, hcap₁, hperm₁, hrun₁⟩ := thInsertar_below h (by omega) x
    have hnew : erase (Igual f) t.datos x = t.datos := by
      refine erase_of_find_none (find_none.mpr fun y hy hyx => ?_)
      exact (List.pairwise_append.mp hdist).2.2 y hy x List.mem_cons_self hyx
    rw [hnew] at hperm₁
    have hperm₂ : (t₁.datos ++ resto.filterMap CasillaHash.dato).Perm
        (t.datos ++ x :: resto.filterMap CasillaHash.dato) :=
      (hperm₁.append_right _).trans List.perm_middle.symm
    obtain ⟨t', h', hcap', hperm', hrun'⟩ := reinsertar_spec cap resto t₁ h₁ (hcap₁.trans hcap)
      (distinct_perm Legal.equiv hperm₂.symm hdist)
      (by have := hperm₁.length_eq; simp only [List.length_cons] at this; omega)
    refine ⟨t', h', hcap', hperm'.trans hperm₂, fun n => ?_⟩
    simp only [List.foldlM_cons, hrun₁ n, Option.bind_eq_bind, Option.bind_some]
    exact hrun' n

/-- A resize keeps the stored elements, doubles the capacity, and starts no resize of its
own: the depth `n` left to it does not matter. -/
theorem redimensionar_spec [Legal f] {t : TablaHash f} (h : Coherente t) :
    ∃ t', Valida t' ∧ t'.capacidad = t.capacidad * 2 ∧ t'.datos.Perm t.datos ∧
      ∀ n, thRedimensionar (thInsertar n) t = some t' := by
  have hpos : 0 < t.capacidad := h.positiva
  have hlen : t.datos.length ≤ t.capacidad := h.longitud ▸ datos_length_le t
  obtain ⟨t', h', hcap, hperm, hrun⟩ := reinsertar_spec t.capacidad t.elems
    (tablahashCrear f (t.capacidad * 2)) (coherente_crear (by omega)) rfl
    (by rw [datos_crear]; exact h.unicos) (by rw [datos_crear]; simpa [TablaHash.datos] using hlen)
  rw [datos_crear, List.nil_append] at hperm
  refine ⟨t', { h' with carga := ?_ }, hcap, hperm, hrun⟩
  have hl : t'.datos.length = t.datos.length := hperm.length_eq
  have := h'.cuenta
  omega

/-- `th_insertar` stores `d` in place of the element equal to it. A resize inside it never
starts another one: every depth `n + 1` gives the same table. -/
theorem insertar_spec [Legal f] {t : TablaHash f} (h : Valida t) (d : α) :
    ∃ t', Valida t' ∧ t'.datos.Perm (d :: erase (Igual f) t.datos d) ∧
      ∀ n, thInsertar (n + 1) t d = some t' := by
  have hpos : 0 < t.capacidad := h.positiva
  have hcarga := h.carga
  obtain ⟨t₁, h₁, hcap, hperm, hcase⟩ := thInsertarCon_spec h.toCoherente (by omega) d
  rcases hcase with ⟨hnum, hrun⟩ | ⟨hnum, hrun⟩
  · exact ⟨t₁, { h₁ with carga := by omega }, hperm, fun n => hrun _⟩
  · by_cases hover : 7 * t₁.capacidad < 10 * t₁.numElems
    · obtain ⟨t₂, h₂, _, hperm₂, hrun₂⟩ := redimensionar_spec h₁
      refine ⟨t₂, h₂, hperm₂.trans hperm, fun n => ?_⟩
      rw [thInsertar, hrun, if_pos hover, hrun₂]
    · refine ⟨t₁, { h₁ with carga := by omega }, hperm, fun n => ?_⟩
      rw [thInsertar, hrun, if_neg hover]

end ResourceManager.HashTable
