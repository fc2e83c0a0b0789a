import Mathlib
import TypedEntities.Proofs.Generation.Plan

/-!
# Runs in memory

Neither the calls of a run nor its sources depend on the sink, and in memory every file can be
written. So a run that ends well ends well in memory too, with the same report and the same sources:
`Generator.start_inMemory`.
-/

namespace TypedEntities.Generator

variable {σ τ α β : Type} {g : Generator σ τ} {s : σ}

/-- The generator that writes to memory instead. -/
def inMemory (g : Generator σ τ) : Generator σ MemoryFiles where
  settings := g.settings
  client := g.client
  render := g.render
  sink := MemoryFiles.sink

/-! ## The same plan -/

/-- A step for each entry of a list plans the same deeds. -/
theorem each_inMemory (g : Generator σ τ) (plan : σ → α → List Deed) (s : σ) (l : List α) :
    g.inMemory.each plan s l = g.each plan s l := by
  induction l generalizing s with
  | nil => rfl
  | cons a l ih => exact congrArg (plan s a ++ ·) (ih _)

/-- What is told of each entry is the same. -/
theorem toldEach_inMemory (g : Generator σ τ) (plan : σ → α → List Deed) (told : σ → α → β) (s : σ)
    (l : List α) : g.inMemory.toldEach plan told s l = g.toldEach plan told s l := by
  induction l generalizing s with
  | nil => rfl
  | cons a l ih => exact congrArg (told s a :: ·) (ih _)

theorem listsPlan_inMemory (g : Generator σ τ) (s : σ) :
    g.inMemory.listsPlan s = g.listsPlan s :=
  congrArg (g.nodesPlan activeRoots s ++ ·) (each_inMemory g g.valuesPlan _ _)

/-- So is what is known when the entity types come in. -/
theorem knowledge_inMemory (g : Generator σ τ) (s : σ) (catalog : Catalog) :
    g.inMemory.knowledge s catalog = g.knowledge s catalog := by
  have hvalues : g.inMemory.toldValues s = g.toldValues s :=
    congrArg List.flatten (toldEach_inMemory g g.valuesPlan (valuesAt g.client) _ _)
  unfold knowledge toldLists
  rw [hvalues, listsPlan_inMemory]
  rfl

/-- The deeds for the entity types are the same. -/
theorem catalogPlan_inMemory (g : Generator σ τ) (s : σ) (catalog : Catalog) :
    g.inMemory.catalogPlan s catalog = g.catalogPlan s catalog := by
  have hwrite : ∀ s k, g.inMemory.writePlan s k = g.writePlan s k := fun s k =>
    congrArg (k.lists.enums.map (fun list => Deed.emit (g.package.listSource list))
      ++ .emit (g.package.phasesSource k.phases) :: ·) (each_inMemory g _ s _)
  unfold catalogPlan pastPhases
  rw [hwrite, knowledge_inMemory, listsPlan_inMemory]
  rfl

theorem told_inMemory (g : Generator σ τ) (s : σ) : g.inMemory.told s = g.told s :=
  knowledge_inMemory g _ _

/-- All deeds of a run are the same. -/
theorem plan_inMemory (g : Generator σ τ) (s : σ) : g.inMemory.plan s = g.plan s := by
  unfold plan
  rw [catalogPlan_inMemory]
  rfl

/-! ## Carried out to its end -/

/-- A deed that is done is done in memory too. -/
theorem perform_inMemory {deed : Deed} {p q : Progress σ τ} {m : Progress σ MemoryFiles}
    (h : g.perform deed p = (.ok (), q)) (hm : m.client = p.client) :
    (g.inMemory.perform deed m).1 = .ok () := by
  have hresult := congrArg Prod.fst h
  cases deed with
  | ask call hcall =>
    rw [perform_ask] at hresult ⊢
    show (g.client call m.client).1.map _ = _
    rw [hm]
    exact hresult
  | leave => rfl
  | readNodes | readPhases | make => exact hresult
  | emit source =>
    -- the text was rendered before, so it is now, and memory takes every file
    obtain ⟨text, p', htext, -⟩ :=
      Run.bind_eq_ok (x := settle (g.render source.kind source.context)) h
    have hrender : settle (g.inMemory.render source.kind source.context) m = (.ok text, m) :=
      congrArg (·, m) (congrArg Prod.fst htext)
    show (g.inMemory.emit source m).1 = _
    unfold emit
    rw [Run.bind_apply, hrender]
    rfl

/-- A plan that is carried out to its end is so in memory too. -/
theorem carryOut_inMemory {plan : List Deed} {p q : Progress σ τ} {m : Progress σ MemoryFiles}
    (h : g.carryOut plan p = (.ok (), q)) (hm : m.client = p.client) :
    (g.inMemory.carryOut plan m).1 = .ok () := by
  induction plan generalizing p m with
  | nil => rfl
  | cons deed plan ih =>
    obtain ⟨⟨⟩, p', hdeed, hrest⟩ :=
      Run.bind_eq_ok (x := g.perform deed) (f := fun _ => g.carryOut plan) h
    have hfirst := perform_inMemory hdeed hm
    -- both runs ask the same client, so it stays the same
    have hclient : (g.inMemory.perform deed m).2.client = p'.client := by
      have hp := perform_client g deed p
      rw [hdeed] at hp
      rw [perform_client, hm, hp]
      rfl
    show ((g.inMemory.perform deed >>= fun _ => g.inMemory.carryOut plan) m).1 = _
    rw [Run.bind_apply]
    cases hdone : g.inMemory.perform deed m with
    | mk result m' =>
      rw [hdone] at hfirst hclient
      obtain rfl : result = .ok () := hfirst
      exact ih hrest hclient

/-- **A run that ends well ends well in memory too**, with the same report and the same sources. -/
theorem start_inMemory {sink : τ} {report : Report} {q : Progress σ τ}
    (h : g.start s sink = (.ok report, q)) (m : MemoryFiles) :
    ∃ q', g.inMemory.start s m = (.ok report, q') ∧ q'.written = q.written := by
  obtain ⟨hplan, rfl⟩ := start_carryOut_ok h
  have hfirst := carryOut_inMemory (m := ⟨s, m, [], []⟩) hplan rfl
  cases hdone : g.inMemory.carryOut (g.plan s) ⟨s, m, [], []⟩ with
  | mk result q' =>
    rw [hdone] at hfirst
    obtain rfl : result = .ok () := hfirst
    refine ⟨q', ?_, (carryOut_ok hdone).2.2.trans (carryOut_ok hplan).2.2.symm⟩
    rw [start_eq_carryOut, plan_inMemory, told_inMemory, Run.bind_apply, hdone]
    rfl

end TypedEntities.Generator
