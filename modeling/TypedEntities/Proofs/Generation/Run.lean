import Mathlib
import TypedEntities.Generation.Run

/-!
# What a run writes

A run reads first and writes then. `Run.bind_eq_ok` takes a run that ends well apart into its steps,
and `Run.Quiet` says of a piece that it leaves the sources alone, however it ends. From one lemma
for each step follows `Generator.start_ok`: the sources that a whole run has written are the ones
that its catalog, its lists and its phases give.
-/

namespace TypedEntities

open TypedEntities.Metadata

variable {σ τ α β : Type}

/-! ## Pieces of a run -/

namespace Run

/-- A second step is made with the result of the first, and not at all if that fails. -/
theorem bind_apply (x : Run σ τ α) (f : α → Run σ τ β) (p : Progress σ τ) :
    (x >>= f) p = match x p with
      | (.ok a, q) => f a q
      | (.error e, q) => (.error e, q) := by
  show (match x p with | (a, q) => ExceptT.bindCont f a q) = _
  rcases x p with ⟨_ | _, q⟩ <;> rfl

/-- Two steps end well if the first does and the second does after it. -/
theorem bind_eq_ok {x : Run σ τ α} {f : α → Run σ τ β} {p q : Progress σ τ} {b : β}
    (h : (x >>= f) p = (.ok b, q)) : ∃ a p', x p = (.ok a, p') ∧ f a p' = (.ok b, q) := by
  rw [bind_apply] at h
  cases hx : x p with
  | mk result p' =>
    rw [hx] at h
    cases result with
    | error e => cases h
    | ok a => exact ⟨a, p', rfl, h⟩

/-- A piece of a run that writes nothing, however it ends. -/
def Quiet (x : Run σ τ α) : Prop :=
  ∀ p, (x p).2.sink = p.sink ∧ (x p).2.written = p.written

/-- Nothing is written on the way. -/
theorem Quiet.written_eq {x : Run σ τ α} (h : Quiet x) {p q : Progress σ τ}
    {result : Except Failure α} (hx : x p = (result, q)) : q.written = p.written := by
  have := (h p).2
  rwa [hx] at this

theorem Quiet.pure (a : α) : Quiet (pure a : Run σ τ α) := fun _ => ⟨rfl, rfl⟩

/-- Two quiet steps are quiet together. -/
theorem Quiet.bind {x : Run σ τ α} {f : α → Run σ τ β} (hx : Quiet x) (hf : ∀ a, Quiet (f a)) :
    Quiet (x >>= f) := by
  intro p
  have h := hx p
  rw [bind_apply]
  cases hp : x p with
  | mk result q =>
    rw [hp] at h
    cases result with
    | error e => exact h
    | ok a =>
      have ha := hf a q
      exact ⟨ha.1.trans h.1, ha.2.trans h.2⟩

/-- A quiet step for each entry of a list is quiet. -/
theorem Quiet.mapM {f : α → Run σ τ β} (hf : ∀ a, Quiet (f a)) (l : List α) :
    Quiet (l.mapM f) := by
  induction l with
  | nil => exact .pure []
  | cons a l ih =>
    rw [List.mapM_cons]
    exact .bind (hf a) fun _ => .bind ih fun _ => .pure _

/-- Where every round of a loop adds sources, the loop adds the sources of its rounds in their
order. -/
theorem written_of_forM {f : α → Run σ τ Unit} {Adds : α → List Source → Prop} {l : List α}
    (hf : ∀ a p q, f a p = (.ok (), q) → ∃ part, Adds a part ∧ q.written = p.written ++ part)
    {p q : Progress σ τ} (h : l.forM f p = (.ok (), q)) :
    ∃ parts, List.Forall₂ Adds l parts ∧ q.written = p.written ++ parts.flatten := by
  induction l generalizing p with
  | nil =>
    cases h
    exact ⟨[], .nil, (List.append_nil _).symm⟩
  | cons a l ih =>
    obtain ⟨⟨⟩, p', ha, hl⟩ := bind_eq_ok (f := fun _ => l.forM f) h
    obtain ⟨part, hpart, hp'⟩ := hf a p p' ha
    obtain ⟨parts, hparts, hq⟩ := ih hl
    refine ⟨part :: parts, .cons hpart hparts, ?_⟩
    rw [hq, hp', List.append_assoc, List.flatten_cons]

end Run

namespace Generator

open Run (Quiet bind_eq_ok)

variable {g : Generator σ τ} {p q : Progress σ τ}

/-! ## Reading -/

/-- To ask the server writes nothing. -/
theorem quiet_ask (g : Generator σ τ) (call : Call) : Quiet (g.ask call) := fun _ => ⟨rfl, rfl⟩

theorem quiet_signOut (g : Generator σ τ) : Quiet g.signOut := fun _ => ⟨rfl, rfl⟩

theorem quiet_settle (result : Except Failure α) : Quiet (settle result : Run σ τ α) :=
  fun _ => ⟨rfl, rfl⟩

theorem quiet_readWorkItemRoot (g : Generator σ τ) : Quiet g.readWorkItemRoot :=
  .bind (quiet_ask g _) fun _ => .bind (quiet_ask g _) fun _ => .bind (quiet_ask g _) fun _ =>
    .bind (quiet_signOut g) fun _ => .pure _

theorem quiet_readCatalog (g : Generator σ τ) (root : Entity) : Quiet (g.readCatalog root) :=
  .bind (quiet_ask g _) fun _ => .pure _

/-- To read a collection writes nothing, whatever its records are. -/
theorem quiet_readAll (g : Generator σ τ) (collection : String) (selection : Selection)
    (read : Record → Except Failure α) : Quiet (g.readAll collection selection read) :=
  .bind (quiet_ask g _) fun _ => quiet_settle _

theorem quiet_readLists (g : Generator σ τ) : Quiet g.readLists :=
  .bind (quiet_readAll g _ _ _) fun _ => .bind (.mapM (fun _ => quiet_readAll g _ _ _) _) fun _ =>
    .pure _

theorem quiet_readPhases (g : Generator σ τ) : Quiet g.readPhases :=
  .bind (quiet_readAll g _ _ _) fun _ => .pure _

/-- To read the fields of an entity type writes nothing. -/
theorem quiet_readFields (g : Generator σ τ) (entity : Entity) : Quiet (g.readFields entity) := by
  unfold readFields
  split
  next => exact .pure _
  next => exact .bind (quiet_ask g _) fun _ => .pure _

/-- A catalog that is read is one of entity types from the server. -/
theorem readCatalog_ok {root : Entity} {catalog : Catalog}
    (h : g.readCatalog root p = (.ok catalog, q)) : ∃ types, catalog = Catalog.ofList types := by
  obtain ⟨types, p', -, h⟩ := bind_eq_ok h
  cases h
  exact ⟨_, rfl⟩

/-- Lists that are read are made of roots and values, without those to ignore. -/
theorem readLists_ok {lists : Lists} (h : g.readLists p = (.ok lists, q)) :
    ∃ roots values, lists = Lists.build roots values g.settings.ignoredLists := by
  obtain ⟨roots, p₁, -, h⟩ := bind_eq_ok h
  obtain ⟨values, p₂, -, h⟩ := bind_eq_ok h
  cases h
  exact ⟨roots, values.flatten, rfl⟩

/-- Phases that are read are those of one batch. -/
theorem readPhases_ok {phases : Phases} (h : g.readPhases p = (.ok phases, q)) :
    ∃ batch, phases = Phases.empty.merge batch := by
  obtain ⟨batch, p', -, h⟩ := bind_eq_ok h
  cases h
  exact ⟨batch, rfl⟩

/-- Reading fields changes nothing else about an entity type. -/
theorem readFields_ok {entity entity' : Entity} (h : g.readFields entity p = (.ok entity', q)) :
    ∃ fields, entity' = entity.withFields fields := by
  unfold readFields at h
  split at h
  next =>
    cases h
    exact ⟨entity.fields, rfl⟩
  next =>
    obtain ⟨fields, p', -, h⟩ := bind_eq_ok h
    cases h
    exact ⟨fields, rfl⟩

/-! ## Writing -/

/-- A text that is put away counts as written for its source. -/
theorem put_ok {source : Source} {text : String} (h : g.put source text p = (.ok (), q)) :
    q.written = p.written ++ [source] := by
  unfold put at h
  split at h
  next =>
    cases h
    rfl
  next => cases h

/-- A source that is rendered and put away is written once. -/
theorem emit_ok {source : Source} (h : g.emit source p = (.ok (), q)) :
    q.written = p.written ++ [source] := by
  obtain ⟨text, p', hrender, hput⟩ := bind_eq_ok h
  rw [put_ok hput, (quiet_settle _).written_eq hrender]

/-- A loop that writes one source in each round writes them in their order. -/
theorem forM_emit_ok {f : α → Source} {l : List α}
    (h : l.forM (fun a => g.emit (f a)) p = (.ok (), q)) : q.written = p.written ++ l.map f := by
  have hround : ∀ a p q, g.emit (f a) p = (.ok (), q) →
      ∃ part, part = [f a] ∧ q.written = p.written ++ part := by
    intro a p q ha
    exact ⟨[f a], rfl, emit_ok ha⟩
  obtain ⟨parts, hparts, hq⟩ := Run.written_of_forM hround h
  have hflat : parts.flatten = l.map f := by
    clear hq h
    induction hparts with
    | nil => rfl
    | cons hpart _ ih => rw [List.flatten_cons, hpart, ih]; rfl
  rw [hq, hflat]

/-- An entity type is written as the sources that it has with the fields that were read for it. -/
theorem writeEntity_ok {r : Resolver} {entity : Entity}
    (h : g.writeEntity r entity p = (.ok (), q)) :
    ∃ part, (∃ fields, g.package.entitySources r (entity.withFields fields) = .ok part)
      ∧ q.written = p.written ++ part := by
  obtain ⟨entity', p₁, hread, hrest⟩ := bind_eq_ok h
  obtain ⟨part, p₂, hsettle, hemit⟩ := bind_eq_ok hrest
  obtain ⟨fields, rfl⟩ := readFields_ok hread
  refine ⟨part, ⟨fields, congrArg Prod.fst hsettle⟩, ?_⟩
  rw [forM_emit_ok (f := id) hemit, List.map_id, (quiet_settle _).written_eq hsettle,
    (quiet_readFields g entity).written_eq hread]

/-! ## Whole runs -/

/-- What a run has read before it writes the first entity type. -/
structure Knowledge where
  catalog : Catalog
  lists : Lists
  phases : Phases

namespace Knowledge

/-- Every part is made of what a server has listed. -/
structure Sound (k : Knowledge) (ignored : TextSet) : Prop where
  catalog : ∃ types, k.catalog = Catalog.ofList types
  lists : ∃ roots values, k.lists = Lists.build roots values ignored
  phases : ∃ batch, k.phases = Phases.empty.merge batch

/-- What references are resolved against. -/
def resolver (k : Knowledge) : Resolver := ⟨k.catalog, k.lists.logicalNames, k.phases.keys⟩

/-- The entity types that get a model. -/
def generated (k : Knowledge) : List Entity :=
  k.catalog.entities.values.filter fun e => !isExcluded e.name

/-- All sources, from those of each entity type. -/
def sources (k : Knowledge) (p : Package) (parts : List (List Source)) : List Source :=
  k.lists.enums.map p.listSource ++ p.phasesSource k.phases :: parts.flatten

/-- The report that names the given files. -/
def report (k : Knowledge) (files : List String) : Report where
  lists := k.lists.enums.length
  phaseGroups := k.phases.size
  entities := k.catalog.names.filter fun name => !isExcluded name
  skipped := k.catalog.names.filter isExcluded
  files := files

end Knowledge

/-- The sources that a generator makes of an entity type, whatever fields the server lists. -/
def Makes (g : Generator σ τ) (r : Resolver) (entity : Entity) (part : List Source) : Prop :=
  ∃ fields, g.package.entitySources r (entity.withFields fields) = .ok part

/-- A run that ends well has read lists and phases and written all their sources, and those of every
entity type that gets a model. -/
theorem writeCatalog_ok {catalog : Catalog} {report : Report}
    (h : g.writeCatalog catalog p = (.ok report, q)) (hcatalog : ∃ types, catalog = .ofList types) :
    ∃ (k : Knowledge) (parts : List (List Source)), k.Sound g.settings.ignoredLists
      ∧ List.Forall₂ (g.Makes k.resolver) k.generated parts
      ∧ q.written = p.written ++ k.sources g.package parts
      ∧ report = k.report (q.written.map g.fileOf) := by
  obtain ⟨lists, p₁, hlists, h⟩ := bind_eq_ok h
  obtain ⟨phases, p₂, hphases, h⟩ := bind_eq_ok h
  obtain ⟨⟨⟩, p₃, hwriteLists, h⟩ := bind_eq_ok h
  obtain ⟨⟨⟩, p₄, hwritePhases, h⟩ := bind_eq_ok h
  obtain ⟨⟨⟩, p₅, hwriteEntities, h⟩ := bind_eq_ok h
  obtain ⟨p₆, p₇, hget, h⟩ := bind_eq_ok h
  cases hget
  cases h
  obtain ⟨parts, hparts, hwritten⟩ := Run.written_of_forM
    (fun _ _ _ he => writeEntity_ok he) hwriteEntities
  refine ⟨⟨catalog, lists, phases⟩, parts,
    ⟨hcatalog, readLists_ok hlists, readPhases_ok hphases⟩, hparts, ?_, rfl⟩
  -- reading writes nothing, and the rest is written in this order
  calc q.written
      = p.written ++ lists.enums.map g.package.listSource ++ [g.package.phasesSource phases]
          ++ parts.flatten := by
        rw [hwritten, emit_ok hwritePhases, forM_emit_ok hwriteLists,
          (quiet_readPhases g).written_eq hphases, (quiet_readLists g).written_eq hlists]
    _ = p.written ++ (lists.enums.map g.package.listSource
          ++ g.package.phasesSource phases :: parts.flatten) := by
        simp only [List.append_assoc, List.singleton_append]

/-- **What a run that ends well has written.** What it knows was read from the server; it has
written the sources of all lists, the source of the phases and the sources of every entity type that
gets a model, in this order, and its report tells of these files. -/
theorem start_ok {client : σ} {sink : τ} {report : Report}
    (h : g.start client sink = (.ok report, q)) :
    ∃ (k : Knowledge) (parts : List (List Source)), k.Sound g.settings.ignoredLists
      ∧ List.Forall₂ (g.Makes k.resolver) k.generated parts
      ∧ q.written = k.sources g.package parts
      ∧ report = k.report (q.written.map g.fileOf) := by
  obtain ⟨root, p₁, hroot, h⟩ := bind_eq_ok (x := g.readWorkItemRoot) h
  obtain ⟨⟨⟩, p₂, hsignIn, h⟩ := bind_eq_ok h
  obtain ⟨catalog, p₃, hcatalog, h⟩ := bind_eq_ok h
  obtain ⟨report', p₄, hwrite, h⟩ := bind_eq_ok h
  obtain ⟨⟨⟩, p₅, hsignOut, h⟩ := bind_eq_ok h
  cases h
  obtain ⟨k, parts, hk, hparts, hwritten, hreport⟩ :=
    writeCatalog_ok hwrite (readCatalog_ok hcatalog)
  -- nothing is written before the catalog is there, and nothing by the sign-out
  have hstart : p₃.written = [] := by
    rw [(quiet_readCatalog g root).written_eq hcatalog, (quiet_ask g _).written_eq hsignIn,
      (quiet_readWorkItemRoot g).written_eq hroot]
  have hend : q.written = p₄.written := (quiet_signOut g).written_eq hsignOut
  rw [hend]
  refine ⟨k, parts, hk, hparts, ?_, hreport⟩
  rw [hwritten, hstart, List.nil_append]

end Generator

end TypedEntities
