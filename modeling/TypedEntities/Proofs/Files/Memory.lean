import Mathlib
import TypedEntities.Files.Memory
import TypedEntities.Proofs.Table

/-!
# Many files in memory

What files in memory hold after several texts were written, if no two of them went to one path: each
path has its text (`get?_writeAll`), and there are no other paths (`paths_writeAll_perm`).
-/

namespace TypedEntities.MemoryFiles

variable {m : MemoryFiles} {path text : String}

/-- Writes several texts, each to its path. -/
def writeAll (m : MemoryFiles) (texts : List (String × String)) : MemoryFiles :=
  texts.foldl (fun m e => m.write e.1 e.2) m

/-- The keys of the paths of several texts. -/
def keysOf (texts : List (String × String)) : List Texts := texts.map fun e => Path.sortKey e.1

theorem get?_writeAll_of_notMem {texts : List (String × String)}
    (h : Path.sortKey path ∉ keysOf texts) : (m.writeAll texts).get? path = m.get? path := by
  induction texts generalizing m with
  | nil => rfl
  | cons e texts ih =>
    obtain ⟨hne, hrest⟩ := not_or.mp (mt List.mem_cons.mpr h)
    show ((m.write e.1 e.2).writeAll texts).get? path = _
    rw [ih hrest, get?_write_of_ne m e.2 hne]

/-- Each path has the text that was written to it. -/
theorem get?_writeAll {texts : List (String × String)} (hkeys : (keysOf texts).Nodup)
    (h : (path, text) ∈ texts) : (m.writeAll texts).get? path = some text := by
  induction texts generalizing m with
  | nil => cases h
  | cons e texts ih =>
    obtain ⟨hnew, hrest⟩ := List.nodup_cons.mp hkeys
    show ((m.write e.1 e.2).writeAll texts).get? path = _
    rcases List.mem_cons.mp h with rfl | h
    · rw [get?_writeAll_of_notMem hnew, get?_write_self]
    · exact ih hrest h

/-- A path that is new comes to the others. -/
theorem paths_write_perm (h : Path.sortKey path ∉ m.files.keys) (text : String) :
    (m.write path text).paths.Perm (path :: m.paths) := by
  have hentries := Table.upsertEntries_perm
    (fun former : Option MemoryFile => (⟨(former.map MemoryFile.path).getD path, text⟩ : MemoryFile)) h
  have hpaths := hentries.map fun e => e.2.path
  unfold paths Table.values
  rw [List.map_map, List.map_map]
  exact hpaths

/-- There are no paths but those that were written to. -/
theorem paths_writeAll_perm {texts : List (String × String)} (hkeys : (keysOf texts).Nodup)
    (hnew : ∀ key ∈ keysOf texts, key ∉ m.files.keys) :
    (m.writeAll texts).paths.Perm (m.paths ++ texts.map Prod.fst) := by
  induction texts generalizing m with
  | nil => exact .of_eq (List.append_nil _).symm
  | cons e texts ih =>
    obtain ⟨hfirst, hrest⟩ := List.nodup_cons.mp hkeys
    have hstillNew : ∀ key ∈ keysOf texts, key ∉ (m.write e.1 e.2).files.keys := by
      intro key hkey hmem
      rcases Table.mem_keys_upsertEntries hmem with rfl | hmem
      · exact hfirst hkey
      · exact hnew key (List.mem_cons_of_mem _ hkey) hmem
    have hwrite := paths_write_perm (hnew _ (List.mem_cons_self ..)) e.2
    refine (ih hrest hstillNew).trans ((hwrite.append_right _).trans ?_)
    rw [List.map_cons]
    exact List.perm_middle.symm

end TypedEntities.MemoryFiles
