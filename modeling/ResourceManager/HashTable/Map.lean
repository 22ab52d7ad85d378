import ResourceManager.HashTable.Insert

/-!
# The hash table as a finite map

`tablahash_refines_map`: after any sequence of insertions and deletions, a search returns
the last element inserted under the key and not deleted since (`ultimo`). `Refina` collects
what else the reached table satisfies.

The other modules use tables through `Tabla`, a table together with its representation
invariant. Their contents is the keyed list `Tabla.datos`, in the order of the slots.
-/

namespace ResourceManager.HashTable

open Library.KeyedList

variable {α : Type} {f : Funciones α}

/-! ## Sequences of operations -/

/-- A call of `tablahash_insertar` or `tablahash_eliminar`. -/
inductive Op (α : Type) where
  | insertar (d : α)
  | eliminar (d : α)

/-- The table after the calls `ops`; `none` if one of them starts a nested resize. -/
def ejecutar (t : TablaHash f) : List (Op α) → Option (TablaHash f)
  | [] => some t
  | .insertar d :: ops => (tablahashInsertar t d).bind fun t' => ejecutar t' ops
  | .eliminar d :: ops => ejecutar (tablahashEliminar t d) ops

/-- The effect of one call on what is stored under the key of `d`. -/
def Op.efecto (f : Funciones α) (d : α) (visto : Option α) : Op α → Option α
  | .insertar x => if Igual f x d then some x else visto
  | .eliminar x => if Igual f x d then none else visto

/-- The last element inserted with a key equal to that of `d` and not deleted since. -/
def ultimo (f : Funciones α) (ops : List (Op α)) (d : α) : Option α :=
  ops.foldl (Op.efecto f d) none

theorem buscar_insertar [Legal f] {t t' : TablaHash f} (h : Valida t) (h' : Valida t') {d : α}
    (hperm : t'.datos.Perm (d :: erase (Igual f) t.datos d)) (k : α) :
    tablahashBuscar t' k = if Igual f d k then some d else tablahashBuscar t k := by
  rw [buscar_eq_find h'.toCoherente, buscar_eq_find h.toCoherente,
    find_perm Legal.equiv hperm h'.unicos, find_put Legal.equiv h.unicos]

theorem buscar_eliminar [Legal f] {t : TablaHash f} (h : Valida t) (d k : α) :
    tablahashBuscar (tablahashEliminar t d) k =
      if Igual f d k then none else tablahashBuscar t k := by
  obtain ⟨h', hd⟩ := eliminar_spec h d
  rw [buscar_eq_find h'.toCoherente, buscar_eq_find h.toCoherente, hd,
    find_erase Legal.equiv h.unicos]

/-- A run of calls succeeds, keeps the invariant, and changes every search as the calls
say. -/
theorem ejecutar_spec [Legal f] : ∀ (ops : List (Op α)) (t : TablaHash f), Valida t →
    ∃ t', ejecutar t ops = some t' ∧ Valida t' ∧
      ∀ k, tablahashBuscar t' k = ops.foldl (Op.efecto f k) (tablahashBuscar t k)
  | [], t, h => ⟨t, rfl, h, fun _ => rfl⟩
  | .insertar d :: ops, t, h => by
    obtain ⟨t₁, h₁, hperm, hrun⟩ := insertar_spec h d
    obtain ⟨t', ht', h', hb⟩ := ejecutar_spec ops t₁ h₁
    refine ⟨t', ?_, h', fun k => ?_⟩
    · simp only [ejecutar, tablahashInsertar, hrun 0, Option.bind_some, ht']
    · rw [hb, buscar_insertar h h₁ hperm]
      rfl
  | .eliminar d :: ops, t, h => by
    obtain ⟨t', ht', h', hb⟩ := ejecutar_spec ops (tablahashEliminar t d) (eliminar_spec h d).1
    refine ⟨t', ht', h', fun k => ?_⟩
    rw [hb, buscar_eliminar h]
    rfl

theorem visitar_eq_foldl {β : Type} (t : TablaHash f) (visita : α → β → β) (extra : β) :
    tablahashVisitarExtra t visita extra =
      t.datos.foldl (fun extra x => visita x extra) extra := by
  unfold tablahashVisitarExtra TablaHash.datos
  rw [List.foldl_filterMap]
  congr

/-- Live slots with equal elements are the same slot. -/
theorem casilla_unica [Legal f] {t : TablaHash f} (h : Coherente t) {i j : Nat} {x y : α}
    (hx : t.elems[i]?.bind CasillaHash.dato = some x)
    (hy : t.elems[j]?.bind CasillaHash.dato = some y) (hxy : Igual f x y) : i = j := by
  obtain ⟨c, hc, hcx⟩ := Option.bind_eq_some_iff.mp hx
  obtain ⟨c', hc', hcy⟩ := Option.bind_eq_some_iff.mp hy
  obtain ⟨hi, rfl⟩ := List.getElem?_eq_some_iff.mp hc
  obtain ⟨hj, rfl⟩ := List.getElem?_eq_some_iff.mp hc'
  have hpair := List.pairwise_iff_getElem.mp (List.pairwise_filterMap.mp h.unicos)
  rcases Nat.lt_trichotomy i j with hlt | heq | hlt
  · exact absurd hxy (hpair i j hi hj hlt x hcx y hcy)
  · exact heq
  · exact absurd (Legal.equiv.symm hxy) (hpair j i hj hi hlt y hcy x hcx)

/-- What the table `t` reached by the calls `ops` satisfies. -/
structure Refina (f : Funciones α) (ops : List (Op α)) (t : TablaHash f) : Prop where
  /-- A search returns the last element inserted under the key and not deleted since. -/
  buscar : ∀ d, tablahashBuscar t d = ultimo f ops d
  /-- No two live slots hold equal elements. -/
  unicos : ∀ (i j : Nat) (x y : α), t.elems[i]?.bind CasillaHash.dato = some x →
    t.elems[j]?.bind CasillaHash.dato = some y → f.comp x y = 0 → i = j
  /-- `numElems` is the number of live slots. -/
  cuenta : t.numElems = t.elems.countP fun c => c.dato.isSome
  /-- A further insertion is not dropped. -/
  inserta : ∀ d, ∃ t', tablahashInsertar t d = some t' ∧ tablahashBuscar t' d = some d
  /-- A traversal calls the visitor once on each live element. -/
  visita : ∃ vistos : List α, vistos.Nodup ∧
    (∀ x, x ∈ vistos ↔ tablahashBuscar t x = some x) ∧
    ∀ (β : Type) (show_ : α → β → β) (extra : β),
      tablahashVisitarExtra t show_ extra = vistos.foldl (fun extra x => show_ x extra) extra
  /-- A resize keeps the contents, and starts no resize whatever depth is left to it. -/
  redimensiona : ∃ t', (∀ n, thRedimensionar (thInsertar n) t = some t') ∧
    t'.capacidad = t.capacidad * 2 ∧ t'.datos.Perm t.datos ∧
    ∀ d, tablahashBuscar t' d = tablahashBuscar t d
  /-- No insertion starts a resize inside a resize. -/
  anidada : ∀ n d, thInsertar (n + 1) t d = tablahashInsertar t d

theorem refina_of_valida [Legal f] {ops : List (Op α)} {t : TablaHash f} (h : Valida t)
    (hb : ∀ d, tablahashBuscar t d = ultimo f ops d) : Refina f ops t where
  buscar := hb
  unicos := fun _ _ _ _ hx hy hxy => casilla_unica h.toCoherente hx hy hxy
  cuenta := h.cuenta.trans List.length_filterMap_eq_countP
  inserta := fun d => by
    obtain ⟨t', h', hperm, hrun⟩ := insertar_spec h d
    refine ⟨t', hrun 0, ?_⟩
    rw [buscar_insertar h h' hperm, if_pos (Legal.equiv.refl d)]
  visita := by
    refine ⟨t.datos, nodup Legal.equiv h.unicos, fun x => ?_, fun β => visitar_eq_foldl t⟩
    rw [buscar_eq_find h.toCoherente, find_eq_some Legal.equiv h.unicos]
    exact ⟨fun hx => ⟨hx, Legal.equiv.refl x⟩, And.left⟩
  redimensiona := by
    obtain ⟨t', h', hcap, hperm, hrun⟩ := redimensionar_spec h.toCoherente
    refine ⟨t', hrun, hcap, hperm, fun d => ?_⟩
    rw [buscar_eq_find h'.toCoherente, buscar_eq_find h.toCoherente,
      find_perm Legal.equiv hperm h'.unicos]
  anidada := fun n d => by
    obtain ⟨t', _, _, hrun⟩ := insertar_spec h d
    rw [hrun n, tablahashInsertar, hrun 0]

/-- **The hash table refines a finite map.** From an empty table of any capacity, every
sequence of insertions and deletions runs to the end and reaches a table that answers
searches as the sequence says. -/
theorem tablahash_refines_map (f : Funciones α)
    (hequiv : Equivalence fun a b => f.comp a b = 0)
    (hhash : ∀ a b, f.comp a b = 0 → f.hash a = f.hash b)
    (capacidad : Nat) (hcap : 1 ≤ capacidad) (ops : List (Op α)) :
    ∃ t, ejecutar (tablahashCrear f capacidad) ops = some t ∧ Refina f ops t := by
  have : Legal f := ⟨hequiv, hhash⟩
  obtain ⟨t, ht, h, hb⟩ := ejecutar_spec ops _ (valida_crear (f := f) hcap)
  refine ⟨t, ht, refina_of_valida h fun d => ?_⟩
  rw [hb, buscar_eq_find (coherente_crear hcap), datos_crear]
  rfl

/-- Natural numbers compared by equality, with colliding hashes. -/
def modTres : Funciones Nat where
  comp a b := if a = b then 0 else 1
  hash a := UInt32.ofNat (a % 3)

theorem tablahash_refines_map_modTres :
    ∃ t, ejecutar (tablahashCrear modTres 1)
        [.insertar 1, .insertar 4, .eliminar 1, .insertar 7, .insertar 4] = some t ∧
      Refina modTres [.insertar 1, .insertar 4, .eliminar 1, .insertar 7, .insertar 4] t := by
  have hiff : ∀ a b, modTres.comp a b = 0 ↔ a = b := by
    intro a b
    simp only [modTres]
    split <;> simp_all
  refine tablahash_refines_map modTres ⟨?_, ?_, ?_⟩ ?_ 1 le_rfl _
  · intro a
    exact (hiff a a).mpr rfl
  · intro a b h
    exact (hiff b a).mpr ((hiff a b).mp h).symm
  · intro a b c h h'
    exact (hiff a c).mpr (((hiff a b).mp h).trans ((hiff b c).mp h'))
  · intro a b h
    rw [(hiff a b).mp h]

end ResourceManager.HashTable
