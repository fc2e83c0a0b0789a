import Mathlib
import TypedEntities.Overload
import TypedEntities.Proofs.Table

/-!
# Ways to choose

A combination chooses for each required field one of the types that the field accepts
(`RequiredFields.accepts_of_combinations`). `IsProduct` says which combinations there are and in
which order, without the recursion that makes them: all ways to choose, the choice for the last field
changing fastest (`isProduct_choices`). `Combined` says what comes of any required fields: that
product, or the first field that is in its way (`RequiredFields.combined_ofInserts`).
-/

namespace TypedEntities

open TypedEntities.Java (TypeExpr)

variable {required : List (String × List TypeExpr)} {c : Combination}

/-! ## The product -/

/-- A choice for a field takes one of its types. -/
def Chooses (choice : String × TypeExpr) (field : String × List TypeExpr) : Prop :=
  choice.1 = field.1 ∧ choice.2 ∈ field.2

/-- One combination stands before another: at the first field where they differ, its type is listed
earlier. -/
inductive Before : List (String × List TypeExpr) → Combination → Combination → Prop
  | here {field : String} {types : List TypeExpr} {rest : List (String × List TypeExpr)}
      {t t' : TypeExpr} {tail tail' : Combination} (h : types.idxOf t < types.idxOf t') :
      Before ((field, types) :: rest) ((field, t) :: tail) ((field, t') :: tail')
  | there {field : String} {types : List TypeExpr} {rest : List (String × List TypeExpr)}
      {t : TypeExpr} {tail tail' : Combination} (h : Before rest tail tail') :
      Before ((field, types) :: rest) ((field, t) :: tail) ((field, t) :: tail')

/-- The combinations of required fields: every way to choose a type for each field, in the order of
the choices. Where nothing is required there is nothing to combine. -/
structure IsProduct (required : List (String × List TypeExpr)) (product : List Combination) :
    Prop where
  mem_iff : ∀ c, c ∈ product ↔ required ≠ [] ∧ List.Forall₂ Chooses c required
  ordered : product.Pairwise (Before required)

/-- The choices are the ways to take one type of each field. -/
theorem mem_choices_iff : c ∈ choices required ↔ List.Forall₂ Chooses c required := by
  induction required generalizing c with
  | nil => rw [choices, List.mem_singleton, List.forall₂_nil_right_iff]
  | cons field rest ih =>
    obtain ⟨name, types⟩ := field
    rw [choices, List.mem_flatMap, List.forall₂_cons_right_iff]
    constructor
    · intro hc
      obtain ⟨t, ht, hc⟩ := hc
      obtain ⟨tail, htail, rfl⟩ := List.mem_map.mp hc
      exact ⟨(name, t), tail, ⟨rfl, ht⟩, ih.mp htail, rfl⟩
    · intro hc
      obtain ⟨⟨name', t⟩, tail, ⟨hname, ht⟩, htail, rfl⟩ := hc
      obtain rfl : name' = name := hname
      exact ⟨t, ht, List.mem_map.mpr ⟨tail, ih.mpr htail, rfl⟩⟩

/-- Types that are listed once stand in the order of their positions. -/
theorem pairwise_idxOf_lt {types : List TypeExpr} (h : types.Nodup) :
    types.Pairwise fun t t' => types.idxOf t < types.idxOf t' := by
  rw [List.pairwise_iff_getElem]
  intro i j hi hj hij
  rwa [h.idxOf_getElem, h.idxOf_getElem]

/-- They come in the order of the product, if no field has a type twice. -/
theorem pairwise_choices (h : ∀ field ∈ required, field.2.Nodup) :
    (choices required).Pairwise (Before required) := by
  induction required with
  | nil => exact List.pairwise_singleton ..
  | cons field rest ih =>
    obtain ⟨name, types⟩ := field
    have hrest := ih fun field hfield => h field (List.mem_cons_of_mem _ hfield)
    rw [choices, List.pairwise_flatMap]
    constructor
    · -- the same type for the first field: the later fields decide
      intro t _
      rw [List.pairwise_map]
      exact hrest.imp Before.there
    · refine (pairwise_idxOf_lt (h _ (List.mem_cons_self ..))).imp fun {t t'} hlt => ?_
      intro c hc c' hc'
      obtain ⟨tail, -, rfl⟩ := List.mem_map.mp hc
      obtain ⟨tail', -, rfl⟩ := List.mem_map.mp hc'
      exact .here hlt

/-- **The recursion makes the product**, where something is required and each field lists its types
once. -/
theorem isProduct_choices (hrequired : required ≠ []) (h : ∀ field ∈ required, field.2.Nodup) :
    IsProduct required (choices required) where
  mem_iff _ := mem_choices_iff.trans (iff_and_self.mpr fun _ => hrequired)
  ordered := pairwise_choices h

theorem isProduct_nil : IsProduct [] [] where
  mem_iff _ := by simp
  ordered := .nil

/-- No combination stands before itself. -/
theorem Before.irrefl (h : Before required c c) : False := by
  induction required generalizing c with
  | nil => cases h
  | cons field rest ih =>
    cases h with
    | here h => exact Nat.lt_irrefl _ h
    | there h => exact ih h

theorem IsProduct.nodup {product : List Combination} (h : IsProduct required product) :
    product.Nodup := by
  refine h.ordered.imp fun {c c'} hbefore heq => ?_
  rw [heq] at hbefore
  exact hbefore.irrefl

/-- Every choice is a type of its field. -/
theorem accepts_of_forall₂ (h : List.Forall₂ Chooses c required) {name : String} {t : TypeExpr}
    (hchoice : (name, t) ∈ c) : ∃ types, (name, types) ∈ required ∧ t ∈ types := by
  obtain ⟨⟨name', types⟩, hmem, hname, ht⟩ := exists_right_of_mem h hchoice
  obtain rfl : name = name' := hname
  exact ⟨types, hmem, ht⟩

namespace RequiredFields

/-- A field that is set accepts the given types, each once. -/
theorem get?_insert (r : RequiredFields) (name name' : String) (types : List TypeExpr) :
    (r.insert name types).fields.get? name'
      = if name' = name then some types.eraseDups else r.fields.get? name' :=
  Table.get?_insert ..

/-- What comes of the required fields if there are types for each and not too many combinations. -/
theorem combinations_ok {r : RequiredFields} {entity : String} {cs : List Combination}
    (h : r.combinations entity = .ok cs) :
    (r.fields.entries = [] ∧ cs = [])
      ∨ (r.fields.entries ≠ [] ∧ cs = choices r.fields.entries) := by
  rw [combinations_eq] at h
  split at h
  next => cases h
  next =>
    split at h
    next hempty =>
      cases h
      exact .inl ⟨List.isEmpty_iff.mp hempty, rfl⟩
    next hsome =>
      split at h
      next => cases h
      next =>
        cases h
        exact .inr ⟨fun hnil => hsome (List.isEmpty_iff.mpr hnil), rfl⟩

/-- Whether there are too many combinations depends on the numbers of types only. -/
theorem tooMany?_eq {l l' : List (String × List TypeExpr)}
    (h : List.Forall₂ (fun x y => x.1 = y.1 ∧ x.2.length = y.2.length) l l') (total : Nat) :
    tooMany? total l = tooMany? total l' := by
  induction h generalizing total with
  | nil => rfl
  | @cons x y _ _ hxy _ ih =>
    obtain ⟨name, types⟩ := x
    obtain ⟨name', types'⟩ := y
    obtain ⟨rfl, hlength⟩ : name = name' ∧ types.length = types'.length := hxy
    rw [tooMany?, tooMany?, hlength, ih]

/-- Whether there are combinations depends on the numbers of types only. -/
theorem exists_combinations {r r' : RequiredFields} {entity : String} {cs : List Combination}
    (hr : r.fields.Related (fun a b => a.length = b.length) r'.fields)
    (h : r.combinations entity = .ok cs) : ∃ cs', r'.combinations entity = .ok cs' := by
  -- the first check asks only whether some field has no types
  have hempty : (r.fields.entries.find? fun f => f.2.isEmpty) = none
      → (r'.fields.entries.find? fun f => f.2.isEmpty) = none := by
    simp only [List.find?_eq_none]
    intro hnone y hy
    obtain ⟨x, hx, -, hlength⟩ := exists_left_of_mem hr hy
    have := hnone x hx
    rw [List.isEmpty_iff_length_eq_zero] at this ⊢
    rwa [← hlength]
  have hnil : r.fields.entries.isEmpty = r'.fields.entries.isEmpty := by
    rw [Bool.eq_iff_iff, List.isEmpty_iff_length_eq_zero, List.isEmpty_iff_length_eq_zero,
      hr.length_eq]
  rw [combinations_eq] at h ⊢
  split at h
  next => cases h
  next hnone =>
    rw [hempty hnone, ← hnil, ← tooMany?_eq hr]
    revert h
    split
    next => exact fun _ => ⟨_, rfl⟩
    next =>
      split
      next => nofun
      next => exact fun _ => ⟨_, rfl⟩

theorem isProduct_of_combinations {r : RequiredFields} {entity : String} {cs : List Combination}
    (h : r.combinations entity = .ok cs) (hnodup : ∀ field ∈ r.fields.entries, field.2.Nodup) :
    IsProduct r.fields.entries cs := by
  rcases combinations_ok h with ⟨hnone, rfl⟩ | ⟨hsome, rfl⟩
  · rw [hnone]
    exact isProduct_nil
  · exact isProduct_choices hsome hnodup

theorem accepts_of_combinations {r : RequiredFields} {entity : String} {cs : List Combination}
    (h : r.combinations entity = .ok cs) {c : Combination} (hc : c ∈ cs) {name : String}
    {t : TypeExpr} (hchoice : (name, t) ∈ c) :
    ∃ types, r.fields.get? name = some types ∧ t ∈ types := by
  rcases combinations_ok h with ⟨-, rfl⟩ | ⟨-, rfl⟩
  · cases hc
  · obtain ⟨types, hmem, ht⟩ := accepts_of_forall₂ (mem_choices_iff.mp hc) hchoice
    exact ⟨types, Table.get?_eq_some_iff.mpr hmem, ht⟩

end RequiredFields

/-! ## Which combinations there are -/

/-- The number of ways to choose a type for each field. -/
def ways (fields : List (String × List TypeExpr)) : Nat := (fields.map fun f => f.2.length).prod

@[simp] theorem ways_nil : ways [] = 1 := rfl

theorem ways_cons (field : String × List TypeExpr) (fields : List (String × List TypeExpr)) :
    ways (field :: fields) = field.2.length * ways fields := by
  rw [ways, List.map_cons, List.prod_cons]
  rfl

/-- There are as many choices as the product of the numbers of types. -/
theorem length_choices (fields : List (String × List TypeExpr)) :
    (choices fields).length = ways fields := by
  induction fields with
  | nil => rfl
  | cons field fields ih => rw [length_choices_cons, ih, ways_cons]

/-- What comes of combining fields. -/
inductive Combined (entity : String) (fields : List (String × List TypeExpr)) :
    Except Failure (List Combination) → Prop
  /-- Some field accepts no type. The first one is named, however many ways the others leave. -/
  | noType {before after : List (String × List TypeExpr)} {name : String}
      (hfields : fields = before ++ (name, []) :: after) (hbefore : ∀ field ∈ before, field.2 ≠ []) :
      Combined entity fields
        (.error (.metadata entity name "required field has no candidate types"))
  /-- There are too many ways to choose. The field is named with which they come to be too many. -/
  | tooMany {before after : List (String × List TypeExpr)} {field : String × List TypeExpr}
      (hnonempty : ∀ f ∈ fields, f.2 ≠ []) (hfields : fields = before ++ field :: after)
      (hbefore : ∀ first, first <+: before → ways first ≤ maxOverloads)
      (hmany : maxOverloads < ways (before ++ [field])) :
      Combined entity fields (.error (.metadata entity field.1 "too many constructor overloads"))
  /-- All ways to choose, as the recursion makes them. Counting comes to them and ends with the last
  one. -/
  | all {cs : List Combination} (hnonempty : ∀ f ∈ fields, f.2 ≠ [])
      (hfew : ways fields ≤ maxOverloads) (hproduct : IsProduct fields cs) (hnodup : cs.Nodup)
      (hnames : ∀ c ∈ cs, c.map Prod.fst = fields.map Prod.fst)
      (hchoices : cs = if fields = [] then [] else choices fields)
      (hcounted : fields ≠ [] → ∀ most, ways fields ≤ most → Odometer.rows? fields most = some cs) :
      Combined entity fields (.ok cs)

/-- The field that is named is the first with which there are too many choices. -/
theorem tooMany?_eq_some {total : Nat} {name : String} (htotal : total ≤ maxOverloads)
    (h : tooMany? total required = some name) :
    ∃ before types after, required = before ++ (name, types) :: after
      ∧ (∀ first, first <+: before → total * ways first ≤ maxOverloads)
      ∧ maxOverloads < total * ways (before ++ [(name, types)]) := by
  induction required generalizing total with
  | nil => cases h
  | cons field rest ih =>
    obtain ⟨name', types'⟩ := field
    simp only [tooMany?] at h
    split at h
    next hmany =>
      -- with the first field there are too many already
      obtain rfl : name' = name := Option.some.inj h
      refine ⟨[], types', rest, rfl, ?_, ?_⟩
      · intro first hfirst
        rwa [List.prefix_nil.mp hfirst, ways_nil, Nat.mul_one]
      · rwa [List.nil_append, ways_cons, ways_nil, Nat.mul_one]
    next hfew =>
      -- with this field there are still few, and the total passes on to the rest
      obtain ⟨before, types, after, rfl, hbefore, hmany⟩ := ih (Nat.le_of_not_lt hfew) h
      refine ⟨(name', types') :: before, types, after, rfl, ?_, ?_⟩
      · intro first hfirst
        rcases List.prefix_cons_iff.mp hfirst with rfl | ⟨later, rfl, hlater⟩
        · rwa [ways_nil, Nat.mul_one]
        · rw [ways_cons, ← Nat.mul_assoc]
          exact hbefore later hlater
      · rwa [List.cons_append, ways_cons, ← Nat.mul_assoc]

namespace RequiredFields

variable {r : RequiredFields}

/-- Sets fields one after another. -/
def ofInserts (inserts : List (String × List TypeExpr)) : RequiredFields :=
  inserts.foldl (fun r f => r.insert f.1 f.2) empty

/-- Of several settings of a field the last one counts, and of that each type once. -/
theorem mem_ofInserts_iff {inserts : List (String × List TypeExpr)} {name : String}
    {types : List TypeExpr} :
    (name, types) ∈ (ofInserts inserts).fields.entries
      ↔ ∃ given, (inserts.reverse.find? fun f => f.1 = name) = some (name, given)
        ∧ types = given.eraseDups := by
  rw [← Table.get?_eq_some_iff]
  induction inserts using List.reverseRecOn with
  | nil => exact ⟨nofun, nofun⟩
  | append_singleton inserts last ih =>
    obtain ⟨name', given'⟩ := last
    have hlast : ofInserts (inserts ++ [(name', given')])
        = (ofInserts inserts).insert name' given' := by
      rw [ofInserts, List.foldl_append]
      rfl
    rw [hlast, get?_insert, List.reverse_append, List.reverse_singleton, List.singleton_append]
    by_cases hname : name = name'
    · subst hname
      simp [eq_comm]
    · rw [if_neg hname, ih, List.find?_cons_of_neg (by simpa using Ne.symm hname)]

/-- No field accepts a type twice. -/
theorem nodup_ofInserts {inserts : List (String × List TypeExpr)} {field : String × List TypeExpr}
    (h : field ∈ (ofInserts inserts).fields.entries) : field.2.Nodup := by
  obtain ⟨given, -, htypes⟩ := mem_ofInserts_iff.mp h
  exact htypes ▸ nodup_eraseDups given

/-- Where each field accepts some type and the ways to choose are few, all of them are counted. -/
theorem combined_of_few (entity : String) (hnodup : ∀ field ∈ r.fields.entries, field.2.Nodup)
    (hempty : (r.fields.entries.find? fun f => f.2.isEmpty) = none)
    (hfew : tooMany? 1 r.fields.entries = none) :
    Combined entity r.fields.entries
      (.ok (if r.fields.entries = [] then [] else choices r.fields.entries)) := by
  have hnonempty : ∀ f ∈ r.fields.entries, f.2 ≠ [] := by
    simpa using List.find?_eq_none.mp hempty
  obtain ⟨hproduct, hcounts⟩ := counts_of_tooMany? hfew hnonempty Nat.one_pos (by decide)
  rw [Nat.one_mul, length_choices] at hproduct
  have his : IsProduct r.fields.entries
      (if r.fields.entries = [] then [] else choices r.fields.entries) := by
    split
    next hnil =>
      rw [hnil]
      exact isProduct_nil
    next hsome => exact isProduct_choices hsome hnodup
  refine .all hnonempty hproduct his his.nodup ?_ rfl ?_
  · intro c hc
    exact map_eq_of_forall₂ (fun _ _ hchoice => hchoice.1) ((his.mem_iff c).mp hc).2
  · intro hsome most hmost
    rw [if_neg hsome]
    exact Odometer.rows?_eq hnonempty hcounts (by rwa [length_choices])

/-- Fields that list their types once are combined, or the first that is in the way is named. -/
theorem combined_combinations {entity : String}
    (hnodup : ∀ field ∈ r.fields.entries, field.2.Nodup) :
    Combined entity r.fields.entries (r.combinations entity) := by
  rw [combinations_eq]
  split
  next field hempty =>
    obtain ⟨htypes, before, after, hfields, hbefore⟩ := List.find?_eq_some_iff_append.mp hempty
    obtain ⟨name, types⟩ := field
    obtain rfl : types = [] := List.isEmpty_iff.mp htypes
    exact .noType hfields (by simpa using hbefore)
  next hempty =>
    split
    next hnil =>
      -- no required fields, and so no combination
      have hfields := List.isEmpty_iff.mp hnil
      have hall := combined_of_few entity hnodup hempty (by rw [hfields, tooMany?])
      rwa [if_pos hfields] at hall
    next hsome =>
      split
      next name hmany =>
        obtain ⟨before, types, after, hfields, hbefore, hmany⟩ :=
          tooMany?_eq_some (by decide) hmany
        -- the product starts at one
        simp only [Nat.one_mul] at hbefore hmany
        exact .tooMany (by simpa using List.find?_eq_none.mp hempty) hfields hbefore hmany
      next hfew =>
        have hall := combined_of_few entity hnodup hempty hfew
        rwa [if_neg fun hfields => hsome (List.isEmpty_iff.mpr hfields)] at hall

/-- **The combinations of required fields**, after any settings of any fields. -/
theorem combined_ofInserts (inserts : List (String × List TypeExpr)) (entity : String) :
    ((ofInserts inserts).fields.entries.map Prod.fst).Pairwise (· < ·)
      ∧ (∀ name types, (name, types) ∈ (ofInserts inserts).fields.entries
        ↔ ∃ given, (inserts.reverse.find? fun f => f.1 = name) = some (name, given)
          ∧ types = given.eraseDups)
      ∧ Combined entity (ofInserts inserts).fields.entries
        ((ofInserts inserts).combinations entity) :=
  ⟨(ofInserts inserts).fields.ascending, fun _ _ => mem_ofInserts_iff,
    combined_combinations fun _ => nodup_ofInserts⟩

end RequiredFields

end TypedEntities
