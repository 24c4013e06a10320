import DocMatch.Node

/-!
The fields of an object. Keys are kept in ascending order of their characters, which is the order
of their UTF-8 bytes too, and each key stands once. So two collections with the same fields are
equal, whatever the order they were collected in. Main statements: `get?_insert`, `get?_erase` and
`ext`.
-/

namespace DocMatch

abbrev Field := String × Node

structure Fields where
  toList : List Field
  sorted : toList.Pairwise (·.1 < ·.1)

namespace Fields

def empty : Fields := ⟨[], .nil⟩

def get? (fields : Fields) (key : String) : Option Node := fields.toList.lookup key

def insertInto (key : String) (node : Node) : List Field → List Field
  | [] => [(key, node)]
  | f :: rest =>
    if key < f.1 then (key, node) :: f :: rest
    else if key = f.1 then (key, node) :: rest
    else f :: insertInto key node rest

theorem mem_insertInto {key : String} {node : Node} {l : List Field} {f : Field}
    (h : f ∈ insertInto key node l) : f = (key, node) ∨ f ∈ l := by
  induction l with
  | nil => simpa [insertInto] using h
  | cons g rest ih =>
    unfold insertInto at h
    split at h
    · simpa using h
    · split at h
      · rcases List.mem_cons.1 h with rfl | h
        · exact .inl rfl
        · exact .inr (List.mem_cons_of_mem _ h)
      · rcases List.mem_cons.1 h with rfl | h
        · exact .inr (List.mem_cons_self ..)
        · rcases ih h with rfl | h
          · exact .inl rfl
          · exact .inr (List.mem_cons_of_mem _ h)

theorem sorted_insertInto (key : String) (node : Node) {l : List Field}
    (h : l.Pairwise (·.1 < ·.1)) : (insertInto key node l).Pairwise (·.1 < ·.1) := by
  induction l with
  | nil => simp [insertInto]
  | cons f rest ih =>
    obtain ⟨hf, hrest⟩ := List.pairwise_cons.1 h
    unfold insertInto
    split
    next hlt =>
      refine List.pairwise_cons.2 ⟨?_, h⟩
      intro g hg
      rcases List.mem_cons.1 hg with rfl | hg
      · exact hlt
      · exact String.lt_trans hlt (hf g hg)
    next hlt =>
      split
      next heq =>
        subst heq
        exact List.pairwise_cons.2 ⟨hf, hrest⟩
      next hne =>
        refine List.pairwise_cons.2 ⟨?_, ih hrest⟩
        intro g hg
        rcases mem_insertInto hg with rfl | hg
        · have hle : f.1 ≤ key := String.not_lt.1 hlt
          rcases Classical.em (f.1 < key) with h' | h'
          · exact h'
          · exact absurd (String.le_antisymm (String.not_lt.1 h') hle) hne
        · exact hf g hg

def insert (fields : Fields) (key : String) (node : Node) : Fields :=
  ⟨insertInto key node fields.toList, sorted_insertInto key node fields.sorted⟩

def erase (fields : Fields) (key : String) : Fields :=
  ⟨fields.toList.filter (·.1 != key), fields.sorted.filter _⟩

/-- Of the members of one name the last one counts. -/
def ofList (members : List Field) : Fields :=
  members.foldl (fun fields (key, node) => fields.insert key node) empty

theorem get?_empty (key : String) : empty.get? key = none := rfl

theorem lookup_cons_eq (f : Field) (l : List Field) (k : String) :
    (f :: l).lookup k = if k = f.1 then some f.2 else l.lookup k := by
  obtain ⟨key, node⟩ := f
  by_cases h : k = key
  · simp [h]
  · have hb : (k == key) = false := by simpa using h
    simp [List.lookup_cons, h, hb]

theorem lookup_insertInto (key : String) (node : Node) (l : List Field) (k : String) :
    (insertInto key node l).lookup k = if k = key then some node else l.lookup k := by
  induction l with
  | nil => rw [insertInto, lookup_cons_eq]
  | cons f rest ih =>
    unfold insertInto
    split
    · rw [lookup_cons_eq]
    · split
      · simp only [lookup_cons_eq]
        grind
      · simp only [lookup_cons_eq, ih]
        grind

theorem get?_insert (fields : Fields) (key : String) (node : Node) (k : String) :
    (fields.insert key node).get? k = if k = key then some node else fields.get? k :=
  lookup_insertInto key node fields.toList k

theorem lookup_filter_ne (key : String) (l : List Field) (k : String) :
    (l.filter (·.1 != key)).lookup k = if k = key then none else l.lookup k := by
  induction l with
  | nil => simp
  | cons f rest ih =>
    by_cases hf : f.1 = key
    · rw [List.filter_cons_of_neg (by simp [hf]), ih, lookup_cons_eq]
      grind
    · rw [List.filter_cons_of_pos (by simp [hf]), lookup_cons_eq, lookup_cons_eq, ih]
      grind

theorem get?_erase (fields : Fields) (key k : String) :
    (fields.erase key).get? k = if k = key then none else fields.get? k :=
  lookup_filter_ne key fields.toList k

theorem lookup_eq_none_of_lt {l : List Field} {k : String} (h : ∀ f ∈ l, k < f.1) :
    l.lookup k = none := by
  induction l with
  | nil => rfl
  | cons f rest ih =>
    have hf : k ≠ f.1 := by
      rintro rfl
      exact String.lt_irrefl _ (h f (List.mem_cons_self ..))
    rw [lookup_cons_eq, if_neg hf]
    exact ih fun g hg => h g (List.mem_cons_of_mem _ hg)

theorem eq_of_lookup {l l' : List Field} (hl : l.Pairwise (·.1 < ·.1))
    (hl' : l'.Pairwise (·.1 < ·.1)) (h : ∀ k, l.lookup k = l'.lookup k) : l = l' := by
  induction l generalizing l' with
  | nil =>
    cases l' with
    | nil => rfl
    | cons f' rest' => simpa [lookup_cons_eq] using h f'.1
  | cons f rest ih =>
    cases l' with
    | nil => simpa [lookup_cons_eq] using h f.1
    | cons f' rest' =>
      obtain ⟨hf, hrest⟩ := List.pairwise_cons.1 hl
      obtain ⟨hf', hrest'⟩ := List.pairwise_cons.1 hl'
      have none_of_lt {g : Field} {r : List Field} {k : String} (hk : k < g.1)
          (hr : ∀ x ∈ r, g.1 < x.1) : (g :: r).lookup k = none := by
        refine lookup_eq_none_of_lt fun x hx => ?_
        rcases List.mem_cons.1 hx with rfl | hx
        · exact hk
        · exact String.lt_trans hk (hr x hx)
      have hkey : f.1 = f'.1 := by
        refine String.le_antisymm (String.not_lt.1 fun hlt => ?_)
          (String.not_lt.1 fun hlt => ?_)
        · have := h f'.1
          rw [none_of_lt hlt hf] at this
          simp [lookup_cons_eq] at this
        · have := h f.1
          rw [none_of_lt hlt hf'] at this
          simp [lookup_cons_eq] at this
      have hnode : f.2 = f'.2 := by
        have := h f.1
        simpa [lookup_cons_eq, hkey] using this
      have htail : rest = rest' := by
        refine ih hrest hrest' fun k => ?_
        by_cases hk : k = f.1
        · subst hk
          rw [lookup_eq_none_of_lt hf, lookup_eq_none_of_lt fun x hx => hkey ▸ hf' x hx]
        · have := h k
          rwa [lookup_cons_eq, lookup_cons_eq, if_neg hk, if_neg (hkey ▸ hk)] at this
      rw [htail, show f = f' from Prod.ext hkey hnode]

theorem ext {fields fields' : Fields} (h : ∀ k, fields.get? k = fields'.get? k) :
    fields = fields' := by
  obtain ⟨l, hl⟩ := fields
  obtain ⟨l', hl'⟩ := fields'
  congr 1
  exact eq_of_lookup hl hl' h

theorem mem_of_lookup {l : List Field} {key : String} {node : Node}
    (h : l.lookup key = some node) : (key, node) ∈ l := by
  induction l with
  | nil => simp at h
  | cons f rest ih =>
    obtain ⟨k, n⟩ := f
    by_cases hk : key = k
    · subst hk
      simp only [List.lookup_cons, beq_self_eq_true, Option.some.injEq] at h
      exact h ▸ List.mem_cons_self ..
    · have : (key == k) = false := by simpa using hk
      simp only [List.lookup_cons, this] at h
      exact List.mem_cons_of_mem _ (ih h)

theorem mem_of_get? {fields : Fields} {key : String} {node : Node}
    (h : fields.get? key = some node) : (key, node) ∈ fields.toList :=
  mem_of_lookup h

theorem mem_ofList {members : List Field} {f : Field} (h : f ∈ (ofList members).toList) :
    f ∈ members := by
  have step : ∀ (l : List Field) (fields : Fields) (g : Field),
      g ∈ (l.foldl (fun fields (key, node) => Fields.insert fields key node) fields).toList →
        g ∈ l ∨ g ∈ fields.toList := by
    intro l
    induction l with
    | nil => exact fun _ _ hg => .inr hg
    | cons m rest ih =>
      intro fields g hg
      rcases ih _ g hg with hg | hg
      · exact .inl (List.mem_cons_of_mem _ hg)
      · rcases mem_insertInto hg with rfl | hg
        · exact .inl (List.mem_cons_self ..)
        · exact .inr hg
  rcases step members empty f h with h | h
  · exact h
  · simp [empty] at h

end Fields

end DocMatch
