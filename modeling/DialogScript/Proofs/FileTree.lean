import DialogScript.FileTree

/-!
# Files that are written and read

What is written at a path is read at the same path. A path that can be written leads to a file or to
a free name, so the place where it ends is none of the directories that it leads through; hence the
way to it is the same when the file stands there.

## Main definitions

* `FileTree.Found.place`, `FileTree.Found.node?`: the place to which a path leads, and what stands
  there
* `FileTree.Leads`: the ways that components may take

## Main results

* `FileTree.leads_iff`: components are followed as they lead
* `FileTree.Leads.put`: components that lead to a file or a free name still do when a file stands
  there
* `FileTree.read_of_write`: what is written is read
-/

namespace DialogScript.FileTree

variable {tree tree' : FileTree}

/-- The place to which a path leads. -/
def Found.place : Found → List String
  | node place _ | free place => place

/-- What stands where a path leads. -/
def Found.node? : Found → Option FileNode
  | node _ there => some there
  | free _ => none

/-! ### Following components -/

/-- A component that names something in a directory. -/
structure NamesEntry (name : String) : Prop where
  moves : ¬(name = "" ∨ name = ".")
  descends : name ≠ ".."
  size : ¬255 < name.utf8ByteSize

/-- The ways that components may take from a place. -/
inductive Leads (tree : FileTree) : List String → List String → Found → Prop
  | here {place node} (hnode : tree.node? place = some node) :
      Leads tree place [] (.node place node)
  | stay {place name rest found} (hplace : tree.node? place = some .directory)
      (hname : name = "" ∨ name = ".") (hrest : Leads tree place rest found) :
      Leads tree place (name :: rest) found
  | up {place rest found} (hplace : tree.node? place = some .directory)
      (hrest : Leads tree place.dropLast rest found) : Leads tree place (".." :: rest) found
  | down {place name node rest found} (hplace : tree.node? place = some .directory)
      (hname : NamesEntry name) (hnode : tree.node? (place ++ [name]) = some node)
      (hrest : Leads tree (place ++ [name]) rest found) : Leads tree place (name :: rest) found
  | free {place name} (hplace : tree.node? place = some .directory) (hname : NamesEntry name)
      (hnode : tree.node? (place ++ [name]) = none) :
      Leads tree place [name] (.free (place ++ [name]))

theorem follow_of_namesEntry {place : List String} {name : String} (rest : List String)
    (hplace : tree.node? place = some .directory) (hname : NamesEntry name) :
    tree.follow place (name :: rest) =
      match tree.node? (place ++ [name]), rest with
      | some _, _ => tree.follow (place ++ [name]) rest
      | none, [] => .ok (.free (place ++ [name]))
      | none, _ => .error .notFound := by
  rw [follow]
  exact (if_neg (not_not_intro hplace)).trans <| (if_neg hname.moves).trans <|
    (if_neg hname.descends).trans (if_neg hname.size)

theorem follow_of_leads {place names : List String} {found : Found}
    (hleads : tree.Leads place names found) : tree.follow place names = .ok found := by
  induction hleads with
  | here hnode => rw [follow, hnode]
  | stay hplace hname _ ih => rw [follow, if_neg (not_not_intro hplace), if_pos hname, ih]
  | up hplace _ ih =>
      rw [follow, if_neg (not_not_intro hplace), if_neg (by decide), if_pos rfl, ih]
  | down hplace hname hnode _ ih =>
      rw [follow_of_namesEntry _ hplace hname, hnode]
      exact ih
  | free hplace hname hnode => rw [follow_of_namesEntry _ hplace hname, hnode]

theorem leads_of_follow {place names : List String} {found : Found}
    (hfollow : tree.follow place names = .ok found) : tree.Leads place names found := by
  induction names generalizing place with
  | nil =>
      rw [follow] at hfollow
      split at hfollow
      · rename_i hnode
        cases hfollow
        exact .here hnode
      · cases hfollow
  | cons name rest ih =>
      rw [follow] at hfollow
      split at hfollow
      · cases hfollow
      rename_i hplace
      have hplace := Decidable.of_not_not hplace
      split at hfollow
      · exact .stay hplace ‹_› (ih hfollow)
      rename_i hmoves
      split at hfollow
      · subst name
        exact .up hplace (ih hfollow)
      rename_i hdescends
      split at hfollow
      · cases hfollow
      rename_i hsize
      have hname : NamesEntry name := ⟨hmoves, hdescends, hsize⟩
      dsimp only at hfollow
      split at hfollow
      · exact .down hplace hname ‹_› (ih hfollow)
      · cases hfollow
        exact .free hplace hname ‹_›
      · cases hfollow

/-- Components are followed as they lead. -/
theorem leads_iff {place names : List String} {found : Found} :
    tree.Leads place names found ↔ tree.follow place names = .ok found :=
  ⟨follow_of_leads, leads_of_follow⟩

namespace Leads

variable {place names : List String} {found : Found}

/-- Components lead to what stands at a place, or to a place where nothing stands. -/
theorem node?_place (hleads : tree.Leads place names found) :
    tree.node? found.place = found.node? := by
  induction hleads with
  | here hnode => exact hnode
  | stay _ _ _ ih | up _ _ ih | down _ _ _ _ ih => exact ih
  | free _ _ hnode => exact hnode

/-- Components that lead to a file or a free name lead to the file that is put there. -/
theorem put (hleads : tree.Leads place names found) (hfound : found.node? ≠ some .directory)
    (content : List UInt8) : (tree.put found.place (.file content)).Leads place names
      (.node found.place (.file content)) := by
  have hend : tree.node? found.place ≠ some .directory := hleads.node?_place ▸ hfound
  have hroot : found.place ≠ [] := fun hnil => hend (by rw [hnil]; rfl)
  have hself := tree.node?_put_self hroot (.file content)
  -- The place is none of the directories on the way, so they are still there.
  have hway {place : List String} (hplace : tree.node? place = some .directory) :
      (tree.put found.place (.file content)).node? place = some .directory := by
    have hother : place ≠ found.place := fun heq => hend (heq ▸ hplace)
    rw [tree.node?_put_of_ne hother, hplace]
  induction hleads with
  | here => exact .here hself
  | stay hplace hname _ ih => exact .stay (hway hplace) hname (ih hfound hend hroot hself hway)
  | up hplace _ ih => exact .up (hway hplace) (ih hfound hend hroot hself hway)
  | @down place name node rest found hplace hname hnode _ ih =>
      have hrest := ih hfound hend hroot hself hway
      by_cases hnext : place ++ [name] = found.place
      · have hthere : (tree.put found.place (.file content)).node? (place ++ [name]) =
            some (.file content) := by rw [hnext, hself]
        exact .down (hway hplace) hname hthere hrest
      · exact .down (hway hplace) hname ((tree.node?_put_of_ne hnext _).trans hnode) hrest
  | free hplace hname => exact .down (hway hplace) hname hself (.here hself)

end Leads

/-! ### Writing and reading -/

/-- A path leads from where it begins along its components. -/
theorem find_eq_ok_iff {path : String} {found : Found} : tree.find path = .ok found ↔
    ∃ place names, tree.begin path = .ok (place, names) ∧ tree.Leads place names found := by
  rw [find]
  cases tree.begin path with
  | error e => exact iff_of_false nofun (by simp)
  | ok start =>
      change tree.follow start.1 start.2 = .ok found ↔ _
      rw [← leads_iff]
      constructor
      · exact fun hleads => ⟨start.1, start.2, rfl, hleads⟩
      · rintro ⟨place, names, hstart, hleads⟩
        cases hstart
        exact hleads

/-- A path at which a file can be written leads there. -/
theorem find_of_target {path : String} {found : Found} (htarget : tree.target path = .ok found) :
    tree.find path = .ok found := by
  rw [target] at htarget
  rw [find]
  cases hbegin : tree.begin path with
  | error e =>
      rw [hbegin] at htarget
      cases htarget
  | ok start =>
      rw [hbegin] at htarget
      change tree.follow start.1 start.2 = .ok found
      simp only [bind, Except.bind] at htarget
      split at htarget
      · split at htarget
        · exact htarget
        · split at htarget <;> cases htarget
      · exact htarget

/-- A file is written where its path leads, to a file or to a free name. -/
theorem of_write {path : String} {content : List UInt8}
    (hwrite : tree.write path content = .ok tree') : ∃ found, tree.find path = .ok found ∧
      found.node? ≠ some .directory ∧ tree' = tree.put found.place (.file content) := by
  rw [write] at hwrite
  cases htarget : tree.target path with
  | error e =>
      rw [htarget] at hwrite
      cases hwrite
  | ok found =>
      refine ⟨found, find_of_target htarget, ?_⟩
      rw [htarget] at hwrite
      rcases found with ⟨place, content | _⟩ | place <;> cases hwrite
      · exact ⟨by simp [Found.node?], rfl⟩
      · exact ⟨by simp [Found.node?], rfl⟩

/-- What is written is read. -/
theorem read_of_write {path : String} {content : List UInt8}
    (hwrite : tree.write path content = .ok tree') : tree'.read path = .ok content := by
  obtain ⟨found, hfind, hfound, rfl⟩ := of_write hwrite
  obtain ⟨place, names, hbegin, hleads⟩ := find_eq_ok_iff.mp hfind
  have hfind' : (tree.put found.place (.file content)).find path =
      .ok (.node found.place (.file content)) :=
    find_eq_ok_iff.mpr ⟨place, names, hbegin, hleads.put hfound content⟩
  rw [read, hfind']

/-- A saved log is what the file holds. -/
theorem read_of_saveLog {path : String} {log : Log} (hsave : tree.saveLog path log = .ok tree') :
    tree'.read path = .ok log.toBytes := by
  rw [saveLog] at hsave
  split at hsave
  · rename_i hwrite
    cases hsave
    exact read_of_write hwrite
  · cases hsave

/-- A path at which a file can be read leads to something. -/
theorem has_of_read {path : String} {content : List UInt8} (hread : tree.read path = .ok content) :
    tree.has path = true := by
  rw [read] at hread
  rw [has]
  split at hread
  · rename_i hfind
    rw [hfind]
  · cases hread
  · cases hread
  · cases hread

/-- A log is loaded from what the file holds. -/
theorem loadLog_of_read {path : String} {content : List UInt8}
    (hread : tree.read path = .ok content) : tree.loadLog path = Log.ofSaved content := by
  rw [loadLog, hread]

end DialogScript.FileTree
