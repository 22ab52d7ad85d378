import Mathlib.Tactic

/-!
# The hash table of `tablahash.c`

An open-addressing table with linear probing and tombstones. A slot is empty (`vacia`),
live (it stores a datum) or deleted (`fdelete` set, no datum). The three probing loops of
the source are structural recursions on the number of iterations left; `idx` is the slot
the next iteration looks at.

* `sondear` is the loop that `tablahash_buscar` and `th_eliminar` share.
* `thInsertarLoop` is the loop of `th_insertar`: it also remembers the first deleted slot
  (`idxprev`, `-1` in the source, `none` here).
* `thInsertar` and `thRedimensionar` call each other. The first argument of `thInsertar`
  bounds the depth of that recursion: `thInsertar 0` has no resize left and fails
  (`none`) where the source would start one. `tablahashInsertar` allows one resize, so it
  fails exactly when a resize triggers a second one inside it.

The load test `numElems * 1.0 / capacidad > 0.7` is read as
`7 * capacidad < 10 * numElems`. Copies and destructors act on the memory of a datum, not
on its value, and do not appear.
-/

namespace ResourceManager.HashTable

/-- The comparison and the hash function a table is created with. -/
structure Funciones (α : Type) where
  /-- `0` on equal elements. -/
  comp : α → α → Int
  hash : α → UInt32

/-- `CasillaHash`. -/
structure CasillaHash (α : Type) where
  dato : Option α
  fdelete : Bool
deriving DecidableEq

variable {α : Type}

/-- A slot as `tablahash_crear` leaves it. -/
def vacia : CasillaHash α := ⟨none, false⟩

/-- `struct _TablaHash`. -/
structure TablaHash (f : Funciones α) where
  elems : List (CasillaHash α)
  numElems : Nat
  capacidad : Nat
deriving DecidableEq

variable {f : Funciones α}

def tablahashCrear (f : Funciones α) (capacidad : Nat) : TablaHash f where
  elems := List.replicate capacidad vacia
  numElems := 0
  capacidad := capacidad

/-! ## Search and deletion -/

/-- The loop of `tablahash_buscar` and `th_eliminar` with `n` iterations left: the slot
of the first element equal to `d`, unless an empty slot comes first. -/
def sondear (f : Funciones α) (elems : List (CasillaHash α)) (cap : Nat) (d : α) :
    Nat → Nat → Option Nat
  | 0, _ => none
  | n + 1, idx =>
    match elems[idx]? with
    | none => none
    | some ⟨none, false⟩ => none
    | some ⟨some x, false⟩ =>
      if f.comp x d = 0 then some idx else sondear f elems cap d n ((idx + 1) % cap)
    | some ⟨_, true⟩ => sondear f elems cap d n ((idx + 1) % cap)

/-- The slot of the element equal to `d`. -/
def TablaHash.ubicar (t : TablaHash f) (d : α) : Option Nat :=
  sondear f t.elems t.capacidad d t.capacidad ((f.hash d).toNat % t.capacidad)

def tablahashBuscar (t : TablaHash f) (d : α) : Option α :=
  (t.ubicar d).bind fun idx => t.elems[idx]?.bind CasillaHash.dato

/-- `th_eliminar`. -/
def tablahashEliminar (t : TablaHash f) (d : α) : TablaHash f :=
  match t.ubicar d with
  | none => t
  | some idx =>
    { t with elems := t.elems.set idx ⟨none, true⟩, numElems := t.numElems - 1 }

/-- A write through the pointer that `tablahash_buscar` returns for `d`. -/
def tablahashModificar (t : TablaHash f) (d : α) (g : α → α) : TablaHash f :=
  match t.ubicar d with
  | none => t
  | some idx =>
    { t with elems := t.elems.modify idx fun c => { c with dato := c.dato.map g } }

/-! ## Insertion -/

/-- The loop of `th_insertar` with `n` iterations left: the array, in which an equal
element has been replaced, and the slot `idxprev` where a new element goes. -/
def thInsertarLoop (f : Funciones α) (cap : Nat) (d : α) :
    Nat → Nat → List (CasillaHash α) → Option Nat → List (CasillaHash α) × Option Nat
  | 0, _, elems, idxprev => (elems, idxprev)
  | n + 1, idx, elems, idxprev =>
    match elems[idx]? with
    | none => (elems, idxprev)
    | some ⟨none, false⟩ => (elems, some (idxprev.getD idx))
    | some ⟨some x, false⟩ =>
      if f.comp x d = 0 then (elems.set idx ⟨some d, false⟩, none)
      else thInsertarLoop f cap d n ((idx + 1) % cap) elems idxprev
    | some ⟨_, true⟩ =>
      thInsertarLoop f cap d n ((idx + 1) % cap) elems (idxprev <|> some idx)

/-- `th_insertar`, up to the call of `th_redimensionar`, which is an argument. -/
def thInsertarCon (redimensionar : TablaHash f → Option (TablaHash f)) (t : TablaHash f)
    (d : α) : Option (TablaHash f) :=
  match thInsertarLoop f t.capacidad d t.capacidad ((f.hash d).toNat % t.capacidad)
      t.elems none with
  | (elems, none) => some { t with elems := elems }
  | (elems, some idxprev) =>
    let t' := { t with
      elems := elems.set idxprev ⟨some d, false⟩, numElems := t.numElems + 1 }
    if 7 * t'.capacidad < 10 * t'.numElems then redimensionar t' else some t'

/-- `th_redimensionar`: every stored element is inserted again, with the insertion
`insertar`, into an array of twice the size. -/
def thRedimensionar (insertar : TablaHash f → α → Option (TablaHash f)) (t : TablaHash f) :
    Option (TablaHash f) :=
  t.elems.foldlM
    (fun tabla casilla =>
      match casilla.dato with
      | some x => insertar tabla x
      | none => some tabla)
    (tablahashCrear f (t.capacidad * 2))

/-- `th_insertar`, with at most `n` resizes inside each other. -/
def thInsertar : Nat → TablaHash f → α → Option (TablaHash f)
  | 0 => thInsertarCon fun _ => none
  | n + 1 => thInsertarCon (thRedimensionar (thInsertar n))

def tablahashInsertar (t : TablaHash f) (d : α) : Option (TablaHash f) := thInsertar 1 t d

/-! ## Traversal -/

/-- `tablahash_visitar_extra`: `show` is called on the datum of every slot that has one,
in the order of the slots, with the context `extra`. -/
def tablahashVisitarExtra {β : Type} (t : TablaHash f) (visita : α → β → β) (extra : β) : β :=
  t.elems.foldl
    (fun extra casilla =>
      match casilla.dato with
      | some x => visita x extra
      | none => extra)
    extra

/-- The stored elements, in the order of the slots. -/
def TablaHash.datos (t : TablaHash f) : List α := t.elems.filterMap CasillaHash.dato

end ResourceManager.HashTable
