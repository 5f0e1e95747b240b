import Countersign.Storage.FileTree

/-! What a file holds after something is added to it. The folders that are made on the way do not
change where a path leads that led somewhere before. Main statement: `read_append`. -/

namespace Countersign

/-- The place that a path names, whether or not its folders are there. -/
def FilePath.place? (path : String) : Except FileFault (List String) :=
  (FilePath.steps path).foldlM (fun folder step => step.destination folder) []

namespace FileTree

variable {t t' : FileTree} {path : String} {place : List String}

/-! ### More folders -/

/-- The files are the same, and no folder is gone. -/
structure Grows (t t' : FileTree) : Prop where
  files : t'.files = t.files
  folders : ∀ place, t.isFolder place = true → t'.isFolder place = true

theorem Grows.refl (t : FileTree) : t.Grows t := ⟨rfl, fun _ h => h⟩

theorem Grows.trans {t'' : FileTree} (h : t.Grows t') (h' : t'.Grows t'') : t.Grows t'' :=
  ⟨h'.files.trans h.files, fun place hp => h'.folders place (h.folders place hp)⟩

theorem grows_withFolder (t : FileTree) (place : List String) : t.Grows (t.withFolder place) := by
  unfold withFolder
  split
  · exact .refl t
  · refine ⟨rfl, fun other h => ?_⟩
    simp only [isFolder, Bool.or_eq_true, decide_eq_true_eq, List.contains_cons] at h ⊢
    exact h.imp_right .inr

theorem grows_makeFolders (t : FileTree) (folder : List String) (steps : List FilePath.Step) :
    t.Grows (t.makeFolders folder steps).2 := by
  induction steps generalizing t folder with
  | nil => exact .refl t
  | cons step steps ih =>
    rw [makeFolders]
    cases step.destination folder with
    | error fault => exact .refl t
    | ok place =>
      simp only
      split
      · exact .refl t
      · exact (grows_withFolder t place).trans (ih (t.withFolder place) place)

theorem grows_prepare (t : FileTree) (path : String) : t.Grows (t.prepare path).2 := by
  rw [prepare]
  split
  · exact grows_makeFolders _ _ _
  · exact .refl t

theorem Grows.content? (h : t.Grows t') (place : List String) :
    t'.content? place = t.content? place := by
  rw [FileTree.content?, h.files, FileTree.content?]

/-! ### Where a path leads -/

theorem foldlM_of_imp {α β ε : Type} {f g : β → α → Except ε β}
    (h : ∀ b a c, f b a = .ok c → g b a = .ok c) {l : List α} {b c : β}
    (hf : l.foldlM f b = .ok c) : l.foldlM g b = .ok c := by
  induction l generalizing b with
  | nil => exact hf
  | cons a l ih =>
    rw [List.foldlM_cons] at hf ⊢
    cases hfa : f b a with
    | error e => rw [hfa] at hf; cases hf
    | ok b' =>
      rw [hfa] at hf
      rw [h b a b' hfa]
      exact ih hf

theorem next_eq_ok {step : FilePath.Step} {folder : List String}
    (h : t.next folder step = .ok place) :
    t.isFolder folder = true ∧ step.destination folder = .ok place := by
  unfold next at h
  split at h
  · next hf => exact ⟨hf, h⟩
  · cases h

theorem locate_eq_ok (h : t.locate path = .ok place) :
    (FilePath.steps path).foldlM t.next [] = .ok place := by
  unfold locate at h
  split at h
  · cases h
  · split at h
    · cases h
    · exact h

/-- A path that leads somewhere still does so when there are more folders. -/
theorem locate_of_folders (h : ∀ place, t.isFolder place = true → t'.isFolder place = true)
    (hl : t.locate path = .ok place) : t'.locate path = .ok place := by
  have hnext : ∀ folder step place, t.next folder step = .ok place →
      t'.next folder step = .ok place := by
    intro folder step place hn
    obtain ⟨hfolder, hdest⟩ := next_eq_ok hn
    rw [next, if_pos (h folder hfolder), hdest]
  unfold locate at hl ⊢
  split at hl
  · cases hl
  · next husable =>
    rw [if_neg husable]
    split at hl
    · cases hl
    · next hempty =>
      rw [if_neg hempty]
      exact foldlM_of_imp hnext hl

theorem place?_of_locate (h : t.locate path = .ok place) : FilePath.place? path = .ok place :=
  foldlM_of_imp (fun _ _ _ hn => (next_eq_ok hn).2) (locate_eq_ok h)

/-! ### What a file holds -/

/-- Nothing can be read at a path, nor could it if the folders on the way were there. -/
structure Absent (t : FileTree) (path : String) : Prop where
  missing : t.read path = .error .missing
  unused : ∀ place, FilePath.place? path = .ok place → t.content? place = none

/-- What is in the file at a path, which is nothing if there is no file yet. -/
def Holds (t : FileTree) (path : String) (bytes : List UInt8) : Prop :=
  t.read path = .ok bytes ∨ t.Absent path ∧ bytes = []

theorem read_of_locate (h : t.locate path = .ok place) :
    t.read path =
      match t.content? place with
      | some bytes => if FilePath.isFolderOnly path then .error .notFolder else .ok bytes
      | none => .error (if t.isFolder place then .isFolder else .missing) := by
  rw [read, h]
  rfl

theorem exists_of_read {bytes : List UInt8} (h : t.read path = .ok bytes) :
    ∃ place, t.locate path = .ok place ∧ t.content? place = some bytes := by
  cases hl : t.locate path with
  | error fault =>
    rw [read, hl] at h
    cases h
  | ok place =>
    rw [read_of_locate hl] at h
    refine ⟨place, rfl, ?_⟩
    split at h
    · next hc =>
      split at h
      · cases h
      · cases h; exact hc
    · cases h

theorem update_of_locate (h : t.locate path = .ok place) (f : Option (List UInt8) → List UInt8) :
    t.update path f =
      if FilePath.isFolderOnly path || t.isFolder place then .error .isFolder
      else .ok { t with
        files := (place, f (t.content? place)) :: t.files.filter fun g => g.1 ≠ place } := by
  rw [update, h]
  show (if _ then _ else _) = _
  split <;> rfl

theorem read_update {f : Option (List UInt8) → List UInt8} (h : t.update path f = .ok t') :
    ∃ place, t.locate path = .ok place ∧ t'.read path = .ok (f (t.content? place)) := by
  cases hl : t.locate path with
  | error fault =>
    rw [update, hl] at h
    cases h
  | ok place =>
    rw [update_of_locate hl] at h
    split at h
    · cases h
    · next hfolder =>
      have ht' := Except.ok.inj h
      have honly : ¬FilePath.isFolderOnly path = true := fun ho => hfolder (by simp [ho])
      have hlocate : t'.locate path = .ok place :=
        locate_of_folders (by rw [← ht']; exact fun _ hp => hp) hl
      refine ⟨place, rfl, ?_⟩
      rw [read_of_locate hlocate, ← ht']
      simp [content?, honly]

/-- What is added stands behind what was there. -/
theorem read_append {old bytes : List UInt8} (hold : t.Holds path old)
    (h : t.append path bytes = (.ok (), t')) : t'.read path = .ok (old ++ bytes) := by
  have hgrows := grows_prepare t path
  unfold append at h
  split at h
  · cases h
  · next t₁ hprepare =>
    rw [hprepare] at hgrows
    split at h
    · cases h
    · next t₂ hupdate =>
      cases h
      obtain ⟨place, hlocate, hread⟩ := read_update hupdate
      rw [hread, hgrows.content? place]
      -- With the new folders the path leads to the same place, or to one where nothing was.
      have hcontent : (t.content? place).getD [] = old := by
        rcases hold with hold | ⟨habsent, rfl⟩
        · obtain ⟨place', hlocate', hcontent⟩ := exists_of_read hold
          have hsame : Except.ok place' = Except.ok place :=
            (locate_of_folders hgrows.folders hlocate').symm.trans hlocate
          cases hsame
          rw [hcontent]
          rfl
        · rw [habsent.unused place (place?_of_locate hlocate)]
          rfl
      rw [hcontent]

end FileTree

end Countersign
