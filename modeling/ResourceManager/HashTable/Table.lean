import ResourceManager.HashTable.Map

/-!
# Tables that carry their invariant

`Tabla f` is a hash table with its representation invariant. The rest of the agent reads
and writes its tables with the operations below, which are those of `tablahash.c`, and
reasons about them through `Tabla.datos`.
-/

namespace ResourceManager.HashTable

open Library.KeyedList

variable {α : Type} {f : Funciones α}

/-- A hash table that satisfies its representation invariant. -/
structure Tabla (f : Funciones α) where
  tabla : TablaHash f
  valida : Valida tabla
deriving DecidableEq

namespace Tabla

/-- The stored elements, in the order of the slots. -/
def datos (t : Tabla f) : List α := t.tabla.datos

def crear (f : Funciones α) (capacidad : Nat) (hcap : 0 < capacidad) : Tabla f :=
  ⟨tablahashCrear f capacidad, valida_crear hcap⟩

/-- The agent creates its tables with capacity 11. -/
theorem eleven_pos : 0 < 11 := Nat.succ_pos 10

/-- `tablahash_nelems`. -/
def nelems (t : Tabla f) : Nat := t.tabla.numElems

def buscar (t : Tabla f) (d : α) : Option α := tablahashBuscar t.tabla d

def visitarExtra {β : Type} (t : Tabla f) (visita : α → β → β) (extra : β) : β :=
  tablahashVisitarExtra t.tabla visita extra

@[simp] theorem datos_nuevo (capacidad : Nat) (hcap : 0 < capacidad) :
    (crear f capacidad hcap).datos = [] := datos_crear capacidad

theorem visitarExtra_eq_foldl {β : Type} (t : Tabla f) (visita : α → β → β) (extra : β) :
    t.visitarExtra visita extra = t.datos.foldl (fun extra x => visita x extra) extra :=
  visitar_eq_foldl t.tabla visita extra

theorem nelems_eq_length (t : Tabla f) : t.nelems = t.datos.length := t.valida.cuenta

theorem distinct (t : Tabla f) : Distinct (Igual f) t.datos := t.valida.unicos

section Legal

variable [Legal f]

theorem insertar_isSome (t : Tabla f) (d : α) : (tablahashInsertar t.tabla d).isSome := by
  obtain ⟨t', _, _, hrun⟩ := insertar_spec t.valida d
  rw [tablahashInsertar, hrun 0]
  rfl

theorem insertar_valida (t : Tabla f) (d : α) :
    Valida ((tablahashInsertar t.tabla d).get (insertar_isSome t d)) ∧
      ((tablahashInsertar t.tabla d).get (insertar_isSome t d)).datos.Perm
        (d :: erase (Igual f) t.datos d) := by
  obtain ⟨t', h', hperm, hrun⟩ := insertar_spec t.valida d
  have he : (tablahashInsertar t.tabla d).get (insertar_isSome t d) = t' := by
    simp only [tablahashInsertar, hrun 0, Option.get_some]
  rw [he]
  exact ⟨h', hperm⟩

def insertar (t : Tabla f) (d : α) : Tabla f :=
  ⟨(tablahashInsertar t.tabla d).get (insertar_isSome t d), (insertar_valida t d).1⟩

def eliminar (t : Tabla f) (d : α) : Tabla f :=
  ⟨tablahashEliminar t.tabla d, (eliminar_spec t.valida d).1⟩

/-- A write, through the pointer that a search for `d` returns, that keeps the key. -/
def modificar (t : Tabla f) (d : α) (g : α → α) (hg : ∀ x, Igual f (g x) x) : Tabla f :=
  ⟨tablahashModificar t.tabla d g, (modificar_spec t.valida d hg).1⟩

theorem datos_insertar (t : Tabla f) (d : α) :
    (t.insertar d).datos.Perm (d :: erase (Igual f) t.datos d) := (insertar_valida t d).2

@[simp] theorem datos_eliminar (t : Tabla f) (d : α) :
    (t.eliminar d).datos = erase (Igual f) t.datos d := (eliminar_spec t.valida d).2

theorem datos_modificar (t : Tabla f) (d : α) (g : α → α) (hg : ∀ x, Igual f (g x) x) :
    (t.modificar d g hg).datos = t.datos.map fun x => if Igual f x d then g x else x :=
  (modificar_spec t.valida d hg).2

theorem buscar_eq_find (t : Tabla f) (d : α) : t.buscar d = find (Igual f) t.datos d :=
  HashTable.buscar_eq_find t.valida.toCoherente d

theorem buscar_eq_some {t : Tabla f} {d x : α} :
    t.buscar d = some x ↔ x ∈ t.datos ∧ Igual f x d := by
  rw [buscar_eq_find, find_eq_some Legal.equiv t.distinct]

theorem buscar_eq_none {t : Tabla f} {d : α} :
    t.buscar d = none ↔ ∀ x ∈ t.datos, ¬ Igual f x d := by
  rw [buscar_eq_find, find_none]

theorem buscar_insertar (t : Tabla f) (d k : α) :
    (t.insertar d).buscar k = if Igual f d k then some d else t.buscar k :=
  HashTable.buscar_insertar t.valida (t.insertar d).valida (datos_insertar t d) k

theorem buscar_eliminar (t : Tabla f) (d k : α) :
    (t.eliminar d).buscar k = if Igual f d k then none else t.buscar k :=
  HashTable.buscar_eliminar t.valida d k

theorem buscar_modificar (t : Tabla f) (d k : α) (g : α → α) (hg : ∀ x, Igual f (g x) x) :
    (t.modificar d g hg).buscar k =
      (t.buscar k).map fun x => if Igual f x d then g x else x := by
  have hkey : ∀ x, Igual f (if Igual f x d then g x else x) k ↔ Igual f x k := by
    intro x
    split
    · exact ⟨fun h => Legal.equiv.trans (Legal.equiv.symm (hg x)) h, fun h =>
        Legal.equiv.trans (hg x) h⟩
    · exact Iff.rfl
  rw [buscar_eq_find, buscar_eq_find, datos_modificar]
  simp only [find, List.find?_map, Function.comp_def, hkey]

theorem mem_insertar {t : Tabla f} {d x : α} :
    x ∈ (t.insertar d).datos ↔ x = d ∨ (x ∈ t.datos ∧ ¬ Igual f x d) := by
  rw [(datos_insertar t d).mem_iff, List.mem_cons, mem_erase]

theorem mem_eliminar {t : Tabla f} {d x : α} :
    x ∈ (t.eliminar d).datos ↔ x ∈ t.datos ∧ ¬ Igual f x d := by
  rw [datos_eliminar, mem_erase]

theorem eq_of_igual {t : Tabla f} {x y : α} (hx : x ∈ t.datos) (hy : y ∈ t.datos)
    (h : Igual f x y) : x = y := eq_of_rel Legal.equiv t.distinct hx hy h

theorem nodup_datos (t : Tabla f) : t.datos.Nodup := nodup Legal.equiv t.distinct

/-- Of several deletions only the keys matter, however their probing sequences cross. -/
theorem datos_foldl_eliminar (ds : List α) : ∀ t : Tabla f,
    (ds.foldl (fun t d => t.eliminar d) t).datos =
      t.datos.filter fun x => decide (∀ d ∈ ds, ¬ Igual f x d) := by
  induction ds with
  | nil => exact fun t => (List.filter_eq_self.mpr fun x _ => decide_eq_true (by simp)).symm
  | cons d ds ih =>
    intro t
    rw [List.foldl_cons, ih, datos_eliminar, erase, List.filter_filter]
    apply List.filter_congr
    intro x _
    rw [← decide_not, ← Bool.decide_and, decide_eq_decide, List.forall_mem_cons]
    exact and_comm

end Legal

/-! ## Bounded collection

The visitors of the agent gather what they look for in an array of fixed size and ignore
the rest. -/

/-- A visitor that appends `g x` for the elements with `p x`, while the array of `max`
entries has room. -/
def recolectar {β : Type} (max : Nat) (p : α → Bool) (g : α → β) (x : α) (ctx : List β) :
    List β :=
  if max ≤ ctx.length then ctx else if p x then ctx ++ [g x] else ctx

theorem foldl_recolectar {β : Type} (max : Nat) (p : α → Bool) (g : α → β) (l : List α) :
    ∀ ctx : List β, ctx.length ≤ max →
      l.foldl (fun ctx x => recolectar max p g x ctx) ctx =
        (ctx ++ (l.filter p).map g).take max := by
  induction l with
  | nil =>
    intro ctx hctx
    simp [List.take_of_length_le hctx]
  | cons x xs ih =>
    intro ctx hctx
    rw [List.foldl_cons]
    by_cases hfull : max ≤ ctx.length
    · have hx : recolectar max p g x ctx = ctx := by simp [recolectar, hfull]
      have hlen : ctx.length = max := Nat.le_antisymm hctx hfull
      rw [hx, ih ctx hctx, ← hlen, List.take_left' rfl, List.take_left' rfl]
    · cases hp : p x with
      | true =>
        have hx : recolectar max p g x ctx = ctx ++ [g x] := by simp [recolectar, hfull, hp]
        rw [hx, ih (ctx ++ [g x]) (by simp; omega)]
        simp [hp]
      | false =>
        have hx : recolectar max p g x ctx = ctx := by simp [recolectar, hfull, hp]
        rw [hx, ih ctx hctx]
        simp [hp]

/-- A bounded collection takes the first `max` matches in the order of the slots. -/
theorem visitar_recolectar {β : Type} (t : Tabla f) (max : Nat) (p : α → Bool) (g : α → β) :
    t.visitarExtra (recolectar max p g) [] = ((t.datos.filter p).map g).take max := by
  rw [visitarExtra_eq_foldl, foldl_recolectar max p g t.datos [] (Nat.zero_le _),
    List.nil_append]

end Tabla

end ResourceManager.HashTable
