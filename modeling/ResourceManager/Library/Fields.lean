import Mathlib.Tactic

/-!
# Fields between separators

`fields sep l` is the list of non-empty stretches of `l` between separators. Cutting `l`
into pieces and taking the fields of each piece gives the fields of `l` exactly when every
cut has a separator on one of its sides (`flatMap_fields_iff`): a cut elsewhere makes two
fields out of one.
-/

namespace ResourceManager.Library.Fields

variable {α : Type*} (sep : α → Bool)

def fields (l : List α) : List (List α) := (l.splitOnP sep).filter fun w => !w.isEmpty

/-- The cut between `a` and `b` is next to a separator. -/
def CleanCut (a b : List α) : Prop := (∃ x ∈ a.getLast?, sep x = true) ∨ ∃ y ∈ b.head?, sep y = true

instance (a b : List α) : Decidable (CleanCut sep a b) :=
  inferInstanceAs (Decidable ((∃ x ∈ a.getLast?, sep x = true) ∨ ∃ y ∈ b.head?, sep y = true))

variable {sep}

@[simp] theorem fields_nil : fields sep [] = [] := rfl

/-- A separator ends a field. -/
theorem fields_append_cons {x : α} (hx : sep x = true) (a b : List α) :
    fields sep (a ++ x :: b) = fields sep a ++ fields sep b := by
  rw [fields, List.splitOnP_append_cons a b hx, List.filter_append]
  rfl

theorem fields_cons_sep {x : α} (hx : sep x = true) (l : List α) :
    fields sep (x :: l) = fields sep l := fields_append_cons hx [] l

theorem fields_word {w : List α} (hw : ∀ x ∈ w, sep x = false) (hne : w ≠ []) :
    fields sep w = [w] := by
  rw [fields, List.splitOnP_eq_singleton hw, List.filter_cons_of_pos (by simpa using hne)]
  rfl

theorem fields_dropWhile (l : List α) : fields sep (l.dropWhile sep) = fields sep l := by
  induction l with
  | nil => rfl
  | cons x l ih =>
    cases hx : sep x with
    | true => rw [List.dropWhile_cons_of_pos hx, ih, fields_cons_sep hx]
    | false => rw [List.dropWhile_cons_of_neg (by simp [hx])]

/-- The characters of a field are those of the text. -/
theorem mem_of_mem_fields {l w : List α}
    (hw : w ∈ fields sep l) {x : α} (hx : x ∈ w) : x ∈ l := by
  have hsplit : ∀ (l : List α), ∀ w ∈ l.splitOnP sep, ∀ x ∈ w, x ∈ l := by
    intro l
    induction l with
    | nil =>
      intro w hw x hx
      rw [List.splitOnP_nil, List.mem_singleton] at hw
      rwa [hw] at hx
    | cons c l ih =>
      intro w hw x hx
      obtain ⟨u, us, hus⟩ := List.exists_cons_of_ne_nil (List.splitOnP_ne_nil sep l)
      rw [hus] at ih
      rw [List.splitOnP_cons_eq_if_modifyHead, hus] at hw
      split at hw
      · rcases List.mem_cons.mp hw with rfl | hw
        · cases hx
        · exact List.mem_cons_of_mem _ (ih w hw x hx)
      · rcases List.mem_cons.mp hw with rfl | hw
        · rcases List.mem_cons.mp hx with rfl | hx
          · exact List.mem_cons_self
          · exact List.mem_cons_of_mem _ (ih u List.mem_cons_self x hx)
        · exact List.mem_cons_of_mem _ (ih w (List.mem_cons_of_mem _ hw) x hx)
  exact hsplit l w (List.mem_filter.mp hw).1 x hx

theorem fields_cons_ne_nil {x : α} (hx : sep x = false)
    (l : List α) : fields sep (x :: l) ≠ [] := by
  obtain ⟨w, ws, hsplit⟩ := List.exists_cons_of_ne_nil (List.splitOnP_ne_nil sep l)
  rw [fields, List.splitOnP_cons_eq_if_modifyHead, hsplit]
  simp [hx]

/-- An element that is not a separator starts a field or lengthens the next one. -/
theorem length_fields_cons {x : α} (hx : sep x = false) (l : List α) :
    (fields sep (x :: l)).length =
      (fields sep l).length + (l.head?.all sep).toNat := by
  obtain ⟨w, ws, hsplit⟩ := List.exists_cons_of_ne_nil (List.splitOnP_ne_nil sep l)
  have hcons : fields sep (x :: l) = (x :: w) :: ws.filter fun w => !w.isEmpty := by
    rw [fields, List.splitOnP_cons_eq_if_modifyHead, hsplit]
    simp [hx]
  have hl : fields sep l = (w :: ws).filter fun w => !w.isEmpty := by rw [fields, hsplit]
  rw [hcons, hl]
  cases l with
  | nil =>
    have hw : [] = w ∧ [] = ws := by simpa using hsplit
    simp [← hw.1, ← hw.2]
  | cons y l =>
    rw [List.splitOnP_cons_eq_if_modifyHead] at hsplit
    cases hy : sep y with
    | true =>
      have hw : w = [] := by simp [hy] at hsplit; exact hsplit.1
      simp [hy, hw]
    | false =>
      obtain ⟨v, vs, hv⟩ := List.exists_cons_of_ne_nil (List.splitOnP_ne_nil sep l)
      have hw : y :: v = w := by simp [hy, hv] at hsplit; exact hsplit.1
      simp [hy, ← hw]

/-- A cut inside a field makes two fields out of one. -/
theorem length_fields_append {a b : List α} {y : α} (hy : sep y = false) :
    a ≠ [] → (∀ x ∈ a.getLast?, sep x = false) →
      (fields sep (a ++ y :: b)).length + 1 =
        (fields sep a).length + (fields sep (y :: b)).length := by
  induction a with
  | nil => exact fun h => absurd rfl h
  | cons z a ih =>
    intro _ hlast
    cases a with
    | nil =>
      have hz : sep z = false := hlast z rfl
      rw [List.singleton_append, length_fields_cons hz, length_fields_cons hz]
      simp [hy]
      omega
    | cons z' a =>
      have ih := ih (by simp) (by simpa using hlast)
      cases hz : sep z with
      | true =>
        rw [List.cons_append, fields_cons_sep hz, fields_cons_sep hz]
        exact ih
      | false =>
        rw [List.cons_append, length_fields_cons hz, length_fields_cons hz]
        simp only [List.cons_append, List.head?_cons] at ih ⊢
        omega

theorem fields_append_of_clean {a b : List α} (h : CleanCut sep a b) :
    fields sep (a ++ b) = fields sep a ++ fields sep b := by
  rcases h with ⟨x, hx, hsep⟩ | ⟨y, hy, hsep⟩
  · obtain ⟨a, rfl⟩ := List.getLast?_eq_some_iff.mp hx
    rw [List.append_assoc, List.singleton_append, fields_append_cons hsep,
      fields_append_cons hsep a [], fields_nil, List.append_nil]
  · obtain ⟨b, rfl⟩ := List.head?_eq_some_iff.mp hy
    rw [fields_append_cons hsep, fields_cons_sep hsep]

theorem length_fields_append_of_not_clean {a b : List α} (ha : a ≠ []) (hb : b ≠ [])
    (h : ¬ CleanCut sep a b) :
    (fields sep (a ++ b)).length < (fields sep a).length + (fields sep b).length := by
  obtain ⟨y, b, rfl⟩ := List.exists_cons_of_ne_nil hb
  have hy : sep y = false := by
    by_contra hy
    exact h (Or.inr ⟨y, rfl, Bool.eq_true_of_not_eq_false hy⟩)
  have hlast : ∀ x ∈ a.getLast?, sep x = false := by
    intro x hx
    by_contra hx'
    exact h (Or.inl ⟨x, hx, Bool.eq_true_of_not_eq_false hx'⟩)
  have := length_fields_append (b := b) hy ha hlast
  omega

theorem length_fields_append_le {a b : List α} (ha : a ≠ []) (hb : b ≠ []) :
    (fields sep (a ++ b)).length ≤ (fields sep a).length + (fields sep b).length := by
  by_cases h : CleanCut sep a b
  · rw [fields_append_of_clean h, List.length_append]
  · exact (length_fields_append_of_not_clean ha hb h).le

/-! ## Pieces -/

theorem length_fields_flatten_le : ∀ (ps : List (List α)), (∀ p ∈ ps, p ≠ []) →
    (fields sep ps.flatten).length ≤ (ps.flatMap (fields sep)).length
  | [], _ => Nat.zero_le _
  | [a], _ => by simp
  | a :: b :: ps, hne => by
    have hrest := length_fields_flatten_le (b :: ps) fun p hp => hne p (List.mem_cons_of_mem a hp)
    have happ : (fields sep (a ++ (b :: ps).flatten)).length ≤ _ :=
      length_fields_append_le (hne a List.mem_cons_self)
        (List.append_ne_nil_of_left_ne_nil (hne b (by simp)) ps.flatten)
    rw [List.flatten_cons, List.flatMap_cons, List.length_append]
    omega

theorem cleanCut_flatten {a b : List α} (ps : List (List α)) (hb : b ≠ []) :
    CleanCut sep a (b :: ps).flatten ↔ CleanCut sep a b := by
  obtain ⟨y, b, rfl⟩ := List.exists_cons_of_ne_nil hb
  rfl

/-- The fields of the pieces are the fields of the whole exactly when every cut is next to
a separator. -/
theorem flatMap_fields_iff : ∀ (ps : List (List α)), (∀ p ∈ ps, p ≠ []) →
    (ps.flatMap (fields sep) = fields sep ps.flatten ↔ ps.IsChain (CleanCut sep))
  | [], _ => by simp
  | [a], _ => by simp
  | a :: b :: ps, hne => by
    have hne' : ∀ p ∈ b :: ps, p ≠ [] := fun p hp => hne p (List.mem_cons_of_mem a hp)
    have ha := hne a List.mem_cons_self
    have hb := hne b (by simp)
    have ih := flatMap_fields_iff (b :: ps) hne'
    rw [List.isChain_cons_cons, ← ih, ← cleanCut_flatten ps hb, List.flatMap_cons,
      List.flatten_cons]
    by_cases hclean : CleanCut sep a (b :: ps).flatten
    · rw [fields_append_of_clean hclean, List.append_cancel_left_eq]
      exact (and_iff_right hclean).symm
    · refine iff_of_false (fun he => ?_) fun h => hclean h.1
      have hrest : (b :: ps).flatten ≠ [] := List.append_ne_nil_of_left_ne_nil hb _
      have hlt := length_fields_append_of_not_clean ha hrest hclean
      have hle : (fields sep (b :: ps).flatten).length ≤ _ := length_fields_flatten_le (b :: ps) hne'
      have hlen := congrArg List.length he
      rw [List.length_append] at hlen
      omega

/-! ## Texts that end with a separator -/

/-- A field and the separator that ends it. -/
def Terminated (sep : α → Bool) (t : List α) : Prop :=
  ∃ w x, t = w ++ [x] ∧ w ≠ [] ∧ sep x = true ∧ ∀ y ∈ w, sep y = false

theorem fields_flatten {ts : List (List α)} (h : ∀ t ∈ ts, Terminated sep t) :
    fields sep ts.flatten = ts.map List.dropLast := by
  induction ts with
  | nil => rfl
  | cons t ts ih =>
    obtain ⟨w, x, rfl, hne, hx, hw⟩ := h t List.mem_cons_self
    rw [List.flatten_cons, List.append_assoc, List.singleton_append, fields_append_cons hx,
      fields_word hw hne, ih fun t ht => h t (List.mem_cons_of_mem _ ht), List.map_cons,
      List.dropLast_concat, List.singleton_append]

/-- A beginning of a sequence of texts that ends with a separator consists of whole texts. -/
theorem exists_of_flatten_eq_append {ts : List (List α)} (h : ∀ t ∈ ts, Terminated sep t) :
    ∀ {a b : List α}, ts.flatten = a ++ b → (∀ x ∈ a.getLast?, sep x = true) →
      ∃ us vs, ts = us ++ vs ∧ us.flatten = a ∧ vs.flatten = b := by
  induction ts with
  | nil =>
    intro a b he _
    obtain ⟨rfl, rfl⟩ := List.append_eq_nil_iff.mp he.symm
    exact ⟨[], [], rfl, rfl, rfl⟩
  | cons t ts ih =>
    intro a b he hlast
    by_cases ha : a = []
    · subst ha
      exact ⟨[], t :: ts, rfl, rfl, he⟩
    rw [List.flatten_cons, List.append_eq_append_iff] at he
    rcases he with ⟨a', rfl, hrest⟩ | ⟨b', rfl, rfl⟩
    · have hlast' : ∀ x ∈ a'.getLast?, sep x = true := by
        intro x hx
        refine hlast x ?_
        rw [List.getLast?_append, Option.mem_def.mp hx]
        rfl
      obtain ⟨us, vs, rfl, rfl, rfl⟩ := ih (fun t ht => h t (List.mem_cons_of_mem _ ht)) hrest hlast'
      exact ⟨t :: us, vs, rfl, rfl, rfl⟩
    · obtain ⟨w, x, ht, _, _, hw⟩ := h (a ++ b') List.mem_cons_self
      rcases List.eq_nil_or_concat b' with rfl | ⟨b'', y, rfl⟩
      · exact ⟨[a], ts, by rw [List.append_nil, List.singleton_append],
          by rw [List.flatten_cons, List.flatten_nil, List.append_nil], rfl⟩
      · -- the beginning ends inside of a field
        rw [List.concat_eq_append, ← List.append_assoc] at ht
        have hwhole := List.append_inj_left' ht rfl
        have hmem : a.getLast ha ∈ w := hwhole ▸ List.mem_append_left _ (List.getLast_mem ha)
        have hsep := hlast _ (List.getLast?_eq_some_getLast ha)
        rw [hw _ hmem] at hsep
        cases hsep

end ResourceManager.Library.Fields
