import ResourceManager.HashTable.Probing
import ResourceManager.Library.KeyedList

/-!
# The representation invariant of the hash table

`Coherente` is what makes linear probing with deleted slots work: no empty slot lies
between the home slot of a stored element and the slot that stores it (`cadena`), no two
stored elements are equal (`unicos`), and `numElems` counts them. `Valida` adds the load
bound that every public operation re-establishes.

Under it the operations act on `datos`, the list of stored elements, as the operations of
a keyed list: `buscar_eq_find`, `eliminar_spec`, `modificar_spec`, `insertar_spec`. A
resize reinserts at most `capacidad` elements into `2 * capacidad` slots, so the load test
fails at each of them and the depth of the recursion does not matter
(`redimensionar_spec`, `insertar_spec`).
-/

namespace ResourceManager.HashTable

open Library.KeyedList

variable {α : Type} {f : Funciones α}

/-- Equality of elements, as the comparison function sees it. -/
def Igual (f : Funciones α) (a b : α) : Prop := f.comp a b = 0

instance (f : Funciones α) : DecidableRel (Igual f) :=
  fun a b => inferInstanceAs (Decidable (f.comp a b = 0))

/-- The comparison is an equivalence and equal elements have the same hash. -/
class Legal (f : Funciones α) : Prop where
  equiv : Equivalence (Igual f)
  hash_eq : ∀ a b, Igual f a b → f.hash a = f.hash b

/-- A comparison that compares a key, and a hash function that depends on the key only. -/
theorem Legal.ofKey {κ : Type} (key : α → κ) (hcomp : ∀ a b, Igual f a b ↔ key a = key b)
    (hhash : ∀ a b, key a = key b → f.hash a = f.hash b) : Legal f where
  equiv := by
    refine ⟨fun a => ?_, fun {a b} h => ?_, fun {a b c} h h' => ?_⟩
    · exact (hcomp a a).mpr rfl
    · exact (hcomp b a).mpr ((hcomp a b).mp h).symm
    · exact (hcomp a c).mpr (((hcomp a b).mp h).trans ((hcomp b c).mp h'))
  hash_eq := fun a b h => hhash a b ((hcomp a b).mp h)

structure Coherente (t : TablaHash f) : Prop where
  longitud : t.elems.length = t.capacidad
  positiva : 0 < t.capacidad
  formada : Formada t.elems
  cuenta : t.numElems = t.datos.length
  unicos : Distinct (Igual f) t.datos
  cadena : ∀ i x, t.elems[i]? = some ⟨some x, false⟩ → ∃ k < t.capacidad,
    pos f t.capacidad x k = i ∧ ∀ j < k, t.elems[pos f t.capacidad x j]? ≠ some vacia

structure Valida (t : TablaHash f) : Prop extends Coherente t where
  carga : 10 * t.numElems ≤ 7 * t.capacidad

/-! ## Slots and stored elements -/

theorem split_at {β : Type} {l : List β} {i : Nat} {c : β} (h : l[i]? = some c) :
    ∃ l₁ l₂, l = l₁ ++ c :: l₂ ∧ ∀ c', l.set i c' = l₁ ++ c' :: l₂ := by
  obtain ⟨hi, rfl⟩ := List.getElem?_eq_some_iff.mp h
  refine ⟨l.take i, l.drop (i + 1), ?_, fun c' => ?_⟩
  · rw [List.getElem_cons_drop, List.take_append_drop]
  · rw [List.set_eq_take_append_cons_drop, if_pos hi]

theorem mem_datos {t : TablaHash f} (hform : Formada t.elems) {x : α} :
    x ∈ t.datos ↔ ∃ i : Nat, t.elems[i]? = some ⟨some x, false⟩ := by
  unfold TablaHash.datos
  rw [List.mem_filterMap]
  constructor
  · rintro ⟨⟨dato, fdelete⟩, hc, hx⟩
    obtain ⟨i, hi⟩ := List.mem_iff_getElem?.mp hc
    simp only at hx
    subst hx
    cases fdelete with
    | false => exact ⟨i, hi⟩
    | true => exact absurd (hform _ hc rfl) (by simp)
  · rintro ⟨i, hi⟩
    exact ⟨_, List.mem_of_getElem? hi, rfl⟩

theorem formada_set {elems : List (CasillaHash α)} (h : Formada elems) (i : Nat)
    {c : CasillaHash α} (hc : c.fdelete = true → c.dato = none) :
    Formada (elems.set i c) := by
  intro c' hc'
  rcases List.mem_or_eq_of_mem_set hc' with hm | rfl
  · exact h c' hm
  · exact hc

/-- A write of a slot that is not empty makes no slot empty. -/
theorem vacia_of_set {elems : List (CasillaHash α)} {i p : Nat} {c : CasillaHash α}
    (hc : c ≠ vacia) (h : (elems.set i c)[p]? = some vacia) : elems[p]? = some vacia := by
  rw [List.getElem?_set] at h
  split at h
  · split at h
    · exact absurd (Option.some.inj h) hc
    · cases h
  · exact h

/-- `cadena` survives a write of a slot that is not empty, for the elements outside it. -/
theorem cadena_set {t : TablaHash f} (h : Coherente t) {i p : Nat} {c : CasillaHash α} {x : α}
    (hc : c ≠ vacia) (hp : p ≠ i) (hx : (t.elems.set i c)[p]? = some ⟨some x, false⟩) :
    ∃ k < t.capacidad, pos f t.capacidad x k = p ∧
      ∀ j < k, (t.elems.set i c)[pos f t.capacidad x j]? ≠ some vacia := by
  rw [List.getElem?_set_ne (Ne.symm hp)] at hx
  obtain ⟨k, hk, hpos, hch⟩ := h.cadena p x hx
  exact ⟨k, hk, hpos, fun j hj he => hch j hj (vacia_of_set hc he)⟩

theorem datos_length_le (t : TablaHash f) : t.datos.length ≤ t.elems.length :=
  List.length_filterMap_le _ _

theorem coherente_crear {cap : Nat} (hcap : 0 < cap) : Coherente (tablahashCrear f cap) := by
  have hd : (tablahashCrear f cap).datos = [] := by
    simp [TablaHash.datos, tablahashCrear, vacia]
  have hslot : ∀ (i : Nat) (x : α), (tablahashCrear f cap).elems[i]? ≠ some ⟨some x, false⟩ := by
    intro i x hx
    have := List.eq_of_mem_replicate (List.mem_of_getElem? hx)
    cases this
  refine ⟨by simp [tablahashCrear], hcap, ?_, by rw [hd]; rfl, ?_, ?_⟩
  · intro c hc hdel
    rw [List.eq_of_mem_replicate hc] at hdel
    cases hdel
  · rw [hd]
    exact List.Pairwise.nil
  · intro i x hx
    exact absurd hx (hslot i x)

theorem valida_crear {cap : Nat} (hcap : 0 < cap) : Valida (tablahashCrear f cap) :=
  { coherente_crear hcap with carga := Nat.zero_le _ }

@[simp] theorem datos_crear (cap : Nat) : (tablahashCrear f cap).datos = [] := by
  simp [TablaHash.datos, tablahashCrear, vacia]

/-! ## Search, deletion and writes -/

theorem pos_congr [Legal f] {a b : α} (h : Igual f a b) (cap k : Nat) :
    pos f cap a k = pos f cap b k := by
  simp only [pos, Legal.hash_eq a b h]

theorem ubicar_some {t : TablaHash f} {d : α} {i : Nat} (h : t.ubicar d = some i) :
    ∃ x, t.elems[i]? = some ⟨some x, false⟩ ∧ Igual f x d := sondear_some h

/-- A stored element equal to `d` is found. -/
theorem ubicar_isSome [Legal f] {t : TablaHash f} (h : Coherente t) {d x : α}
    (hx : x ∈ t.datos) (hxd : Igual f x d) : (t.ubicar d).isSome := by
  obtain ⟨i, hi⟩ := (mem_datos h.formada).mp hx
  obtain ⟨k, hk, hpos, hch⟩ := h.cadena i x hi
  rw [pos_congr hxd] at hpos
  refine sondear_hit h.positiva h.longitud (hpos ▸ hi) hxd (m := 0) (Nat.zero_le _) (by omega) ?_
  intro j _ hj
  rw [← pos_congr hxd]
  exact hch j hj

theorem buscar_eq_find [Legal f] {t : TablaHash f} (h : Coherente t) (d : α) :
    tablahashBuscar t d = find (Igual f) t.datos d := by
  unfold tablahashBuscar
  cases hu : t.ubicar d with
  | none =>
    symm
    rw [Option.bind_none, find_none]
    intro x hx hxd
    have := ubicar_isSome h hx hxd
    rw [hu] at this
    cases this
  | some i =>
    obtain ⟨x, hx, hxd⟩ := ubicar_some hu
    have hmem : x ∈ t.datos := (mem_datos h.formada).mpr ⟨i, hx⟩
    rw [(find_eq_some Legal.equiv h.unicos).mpr ⟨hmem, hxd⟩]
    simp [hx]

/-- The table around the slot of a stored element equal to `d`. -/
theorem ubicar_split {t : TablaHash f} {d : α} {i : Nat} (hu : t.ubicar d = some i) :
    ∃ x l₁ l₂, Igual f x d ∧ t.elems[i]? = some ⟨some x, false⟩ ∧
      (∀ c, t.elems.set i c = l₁ ++ c :: l₂) ∧
      t.datos = l₁.filterMap CasillaHash.dato ++ x :: l₂.filterMap CasillaHash.dato := by
  obtain ⟨x, hx, hxd⟩ := ubicar_some hu
  obtain ⟨l₁, l₂, hl, hset⟩ := split_at hx
  refine ⟨x, l₁, l₂, hxd, hx, hset, ?_⟩
  rw [TablaHash.datos, hl]
  simp

theorem eliminar_spec [Legal f] {t : TablaHash f} (h : Valida t) (d : α) :
    Valida (tablahashEliminar t d) ∧
      (tablahashEliminar t d).datos = erase (Igual f) t.datos d := by
  cases hu : t.ubicar d with
  | none =>
    have hb : find (Igual f) t.datos d = none := by
      rw [← buscar_eq_find h.toCoherente, tablahashBuscar, hu, Option.bind_none]
    have he : tablahashEliminar t d = t := by simp [tablahashEliminar, hu]
    rw [he]
    exact ⟨h, (erase_of_find_none hb).symm⟩
  | some i =>
    obtain ⟨x, l₁, l₂, hxd, hxi, hset, hd⟩ := ubicar_split hu
    have he : tablahashEliminar t d =
        { t with elems := t.elems.set i ⟨none, true⟩, numElems := t.numElems - 1 } := by
      simp [tablahashEliminar, hu]
    have hd' : (tablahashEliminar t d).datos =
        l₁.filterMap CasillaHash.dato ++ l₂.filterMap CasillaHash.dato := by
      rw [he, TablaHash.datos, hset]
      simp
    have herase : (tablahashEliminar t d).datos = erase (Igual f) t.datos d := by
      rw [hd', hd, erase_append_cons Legal.equiv (hd ▸ h.unicos) hxd]
    refine ⟨⟨⟨?_, ?_, ?_, ?_, ?_, ?_⟩, ?_⟩, herase⟩
    · rw [he]
      simpa using h.longitud
    · rw [he]
      exact h.positiva
    · rw [he]
      exact formada_set h.formada i fun _ => rfl
    · rw [hd', he]
      have := h.cuenta
      rw [hd] at this
      simp only [List.length_append, List.length_cons] at this ⊢
      omega
    · rw [herase]
      exact distinct_erase h.unicos d
    · rw [he]
      intro p y hy
      have hp : p ≠ i := by
        rintro rfl
        have hlt : p < t.elems.length := (List.getElem?_eq_some_iff.mp hxi).1
        simp only [List.getElem?_set_self hlt] at hy
        cases hy
      exact cadena_set h.toCoherente (by simp [vacia]) hp hy
    · rw [he]
      have := h.carga
      simp only
      omega

/-- A write that keeps the key changes that element only. -/
theorem modificar_spec [Legal f] {t : TablaHash f} (h : Valida t) (d : α) {g : α → α}
    (hg : ∀ x, Igual f (g x) x) :
    Valida (tablahashModificar t d g) ∧ (tablahashModificar t d g).datos =
      t.datos.map fun x => if Igual f x d then g x else x := by
  have hmap : Distinct (Igual f) (t.datos.map fun x => if Igual f x d then g x else x) := by
    refine List.pairwise_map.mpr (List.Pairwise.imp ?_ h.unicos)
    intro a b hab he
    have hkey : ∀ x, Igual f (if Igual f x d then g x else x) x := by
      intro x
      split
      · exact hg x
      · exact Legal.equiv.refl x
    exact hab (Legal.equiv.trans (Legal.equiv.symm (hkey a)) (Legal.equiv.trans he (hkey b)))
  cases hu : t.ubicar d with
  | none =>
    have hb : find (Igual f) t.datos d = none := by
      rw [← buscar_eq_find h.toCoherente, tablahashBuscar, hu, Option.bind_none]
    have he : tablahashModificar t d g = t := by simp [tablahashModificar, hu]
    rw [he]
    refine ⟨h, ?_⟩
    conv_lhs => rw [← List.map_id t.datos]
    exact List.map_congr_left fun x hx => (if_neg (find_none.mp hb x hx)).symm
  | some i =>
    obtain ⟨x, l₁, l₂, hxd, hxi, hset, hd⟩ := ubicar_split hu
    have hmod : t.elems.modify i (fun c => { c with dato := c.dato.map g }) =
        t.elems.set i ⟨some (g x), false⟩ := by
      rw [List.modify_eq_set_getElem?, hxi]
      rfl
    have he : tablahashModificar t d g =
        { t with elems := t.elems.set i ⟨some (g x), false⟩ } := by
      simp only [tablahashModificar, hu, hmod]
    have hother : ∀ y ∈ l₁.filterMap CasillaHash.dato ++ l₂.filterMap CasillaHash.dato,
        ¬ Igual f y d := by
      intro y hy
      have hm : y ∈ erase (Igual f) t.datos d := by
        rw [hd, erase_append_cons Legal.equiv (hd ▸ h.unicos) hxd]
        exact hy
      exact (mem_erase.mp hm).2
    have hd' : (tablahashModificar t d g).datos =
        t.datos.map fun x => if Igual f x d then g x else x := by
      rw [he, TablaHash.datos, hset, hd]
      have hid : ∀ l : List α, (∀ y ∈ l, ¬ Igual f y d) →
          l.map (fun x => if Igual f x d then g x else x) = l := by
        intro l hl
        conv_rhs => rw [← List.map_id l]
        exact List.map_congr_left fun y hy => if_neg (hl y hy)
      rw [List.map_append, List.map_cons, if_pos hxd,
        hid _ fun y hy => hother y (List.mem_append_left _ hy),
        hid _ fun y hy => hother y (List.mem_append_right _ hy)]
      simp
    refine ⟨⟨⟨?_, ?_, ?_, ?_, ?_, ?_⟩, ?_⟩, hd'⟩
    · rw [he]
      simpa using h.longitud
    · rw [he]
      exact h.positiva
    · rw [he]
      exact formada_set h.formada i (by simp)
    · rw [hd', List.length_map, he]
      exact h.cuenta
    · rw [hd']
      exact hmap
    · rw [he]
      intro p y hy
      by_cases hp : p = i
      · subst hp
        have hlt : p < t.elems.length := (List.getElem?_eq_some_iff.mp hxi).1
        simp only [List.getElem?_set_self hlt] at hy
        cases hy
        obtain ⟨k, hk, hpos, hch⟩ := h.cadena p x hxi
        refine ⟨k, hk, by rw [pos_congr (hg x), hpos], fun j hj hv => ?_⟩
        rw [pos_congr (hg x)] at hv
        exact hch j hj (vacia_of_set (by simp [vacia]) hv)
      · exact cadena_set h.toCoherente (by simp [vacia]) hp hy
    · rw [he]
      exact h.carga

end ResourceManager.HashTable
