/-
# DesignTokens.Proofs.Plan -- what a run leaves in its folder

A write puts a file where its path leads and leaves all other files as they are (`Folder.Wrote`).  A
file more makes no folder less, and a path is followed through folders alone (`Folder.follow_of_folders`),
so afterwards the path leads to the file that was written.  The null device keeps nothing.

A file that can be opened (`Folder.Opens`) holds the text afterwards, or nothing if the text has no bytes.  A
plan changes its folder only if it comes to its end and has something to write to such a file.
-/
import DesignTokens.Plan

namespace DesignTokens

set_option autoImplicit false

namespace Folder

/-! ## A file in its place -/

section Put

variable (bytes : ByteArray) (chain : List String) (files : List (List String × ByteArray))

theorem lookup_put_self : (put bytes chain files).lookup chain = some bytes := by
  induction files with
  | nil => rw [put, List.lookup_cons_self]
  | cons entry rest ih =>
      obtain ⟨c, old⟩ := entry
      rw [put]
      split
      · exact List.lookup_cons_self
      · rename_i differs
        have ne : (chain == c) = false := by
          rw [beq_eq_false_iff_ne]
          rintro rfl
          exact differs (beq_self_eq_true _)
        rw [List.lookup_cons, ne]
        exact ih

theorem lookup_put_of_ne {chain other : List String} (ne : other ≠ chain) :
    (put bytes chain files).lookup other = files.lookup other := by
  have notThere : (other == chain) = false := beq_eq_false_iff_ne.2 ne
  induction files with
  | nil => rw [put, List.lookup_cons, notThere]
  | cons entry rest ih =>
      obtain ⟨c, old⟩ := entry
      rw [put]
      split
      · rename_i same
        rw [List.lookup_cons, List.lookup_cons, eq_of_beq same, notThere]
      · rw [List.lookup_cons, List.lookup_cons, ih]

theorem keys_subset_keys_put :
    files.map Prod.fst ⊆ (put bytes chain files).map Prod.fst := by
  induction files with
  | nil => exact List.nil_subset _
  | cons entry rest ih =>
      obtain ⟨c, old⟩ := entry
      rw [put]
      split
      · rename_i same
        rw [List.map_cons, List.map_cons, eq_of_beq same]
        exact List.Subset.refl _
      · exact List.cons_subset_cons _ ih

end Put

/-! ## Following a path -/

variable {f after : Folder} {p : FilePath} {bytes : ByteArray}

/-- A path that leads somewhere still does if no folder is gone. -/
theorem follow_of_folders (folders : ∀ chain, f.isFolder chain = true → after.isFolder chain = true)
    {start names chain : List String} (followed : f.follow start names = .ok chain) :
    after.follow start names = .ok chain := by
  fun_induction f.follow start names with
  | case1 chain =>
      rw [follow]
      exact followed
  | case2 chain rest atTop allUp =>
      rw [follow, if_pos atTop, if_pos allUp]
      exact followed
  | case4 chain rest below ih =>
      rw [follow, if_neg below]
      exact ih followed
  | case6 chain name notUp short =>
      rw [follow, if_neg short]
      · exact followed
      · exact notUp
  | case8 chain name rest notUp more short isFolder ih =>
      rw [follow, if_neg short, if_pos (folders _ isFolder)]
      · exact ih followed
      · exact notUp
      · exact more
  | case3 | case5 | case7 | case9 | case10 => cases followed

theorem locate_of_folders (folders : ∀ chain, f.isFolder chain = true → after.isFolder chain = true)
    {chain : List String} (located : f.locate p = .ok chain) : after.locate p = .ok chain := by
  unfold locate at located ⊢
  split at located
  · cases located
  · rename_i short
    rw [if_neg short]
    split at located
    · rename_i relative
      rw [if_pos relative]
      exact follow_of_folders folders located
    · rename_i absolute
      rwa [if_neg absolute]

/-! ## Writing a file -/

/-- What a write leaves behind: the folders, all files but one, and what was written where the path
leads. -/
structure Wrote (f : Folder) (p : FilePath) (bytes : ByteArray) (after : Folder) : Prop where
  folders : after.folders = f.folders
  others : ∀ chain, f.locate p ≠ .ok chain → after.file? chain = f.file? chain
  holds : isNullDevice p = false → after.read p = .ok bytes

theorem isFolder_put {chain : List String} (isFolder : f.isFolder chain = true) (place : List String)
    (bytes : ByteArray) : { f with files := put bytes place f.files : Folder }.isFolder chain = true := by
  unfold Folder.isFolder at isFolder ⊢
  rw [Bool.or_eq_true] at isFolder ⊢
  refine isFolder.imp_right fun known => ?_
  obtain ⟨folder, mem, leads⟩ := List.any_eq_true.1 known
  refine List.any_eq_true.2 ⟨folder, ?_, leads⟩
  rcases List.mem_append.1 mem with own | ofFile
  · exact List.mem_append_left _ own
  · refine List.mem_append_right _ ?_
    obtain ⟨entry, inFiles, rfl⟩ := List.mem_map.1 ofFile
    have inKeys := keys_subset_keys_put bytes place f.files (List.mem_map_of_mem inFiles)
    obtain ⟨entry', inFiles', sameKey⟩ := List.mem_map.1 inKeys
    exact List.mem_map.2 ⟨entry', inFiles', congrArg List.dropLast sameKey⟩

/-- **A write changes the file that its path names**, and nothing else. -/
theorem wrote_of_write (written : f.write p bytes = .ok after) : f.Wrote p bytes after := by
  unfold write at written
  split at written
  · rename_i isNull
    cases written
    exact ⟨rfl, fun _ _ => rfl, fun notNull => absurd isNull (by simp [notNull])⟩
  · rename_i notNull
    split at written
    · cases written
    · rename_i chain located
      split at written
      · cases written
      · cases written
        refine ⟨rfl, fun other elsewhere => ?_, fun _ => ?_⟩
        · have ne : other ≠ chain := by
            rintro rfl
            exact elsewhere located
          exact lookup_put_of_ne bytes f.files ne
        · have located' := locate_of_folders
            (fun _ isFolder => isFolder_put isFolder chain bytes) located
          rw [read, if_neg notNull, located']
          dsimp only [file?]
          rw [lookup_put_self]

/-- A path at which a file can be opened, to be written. -/
structure Opens (f : Folder) (p : FilePath) : Prop where
  noNull : '\x00' ∉ p.toText.toList
  takes : ∃ after, f.write p ByteArray.empty = .ok after

/-- Whether a file can be written is not up to what is written. -/
theorem exists_write_of_exists_write {bytes : ByteArray} (other : ByteArray)
    (takes : ∃ after, f.write p bytes = .ok after) : ∃ after, f.write p other = .ok after := by
  obtain ⟨after, wrote⟩ := takes
  unfold write at wrote ⊢
  split
  · exact ⟨_, rfl⟩
  · rename_i notNull
    rw [if_neg notNull] at wrote
    split at wrote
    · cases wrote
    · split at wrote
      · cases wrote
      · rename_i noFolder
        exact ⟨_, if_neg noFolder⟩

end Folder

/-! ## Writings -/

namespace Writing

variable {w : Writing} {folder after : Folder}

/-- Where a file can be opened, it then holds the text, or is empty if the text has no bytes. -/
theorem perform_of_opens (opens : folder.Opens w.path) :
    ∃ after, w.perform folder = (w.tear?.map Fault.unencodable, after) ∧
      folder.Wrote w.path w.bytes after := by
  obtain ⟨noNull, takes⟩ := opens
  obtain ⟨after, wrote⟩ := Folder.exists_write_of_exists_write w.bytes takes
  exact ⟨after, by simp [perform, noNull, wrote], Folder.wrote_of_write wrote⟩

theorem perform_of_not_opens (closed : ¬ folder.Opens w.path) :
    ∃ fault, w.perform folder = (some fault, folder) := by
  unfold perform
  split
  · exact ⟨_, rfl⟩
  · rename_i noNull
    rw [List.contains_iff_mem] at noNull
    split
    · exact ⟨_, rfl⟩
    · rename_i after wrote
      exact absurd ⟨noNull, Folder.exists_write_of_exists_write _ ⟨after, wrote⟩⟩ closed

/-- A write without a fault has opened the file and put the text into it. -/
theorem wrote_of_perform (done : w.perform folder = (none, after)) :
    folder.Opens w.path ∧ w.tear? = none ∧ folder.Wrote w.path w.text.toUTF8 after := by
  by_cases opens : folder.Opens w.path
  · obtain ⟨_, performed, wrote⟩ := perform_of_opens opens
    rw [done, Prod.mk.injEq] at performed
    obtain ⟨noFault, rfl⟩ := performed
    have whole : w.tear? = none := Option.map_eq_none_iff.1 noFault.symm
    refine ⟨opens, whole, ?_⟩
    rwa [bytes, whole] at wrote
  · obtain ⟨fault, performed⟩ := perform_of_not_opens opens
    cases done.symm.trans performed

end Writing

/-! ## Plans -/

namespace Plan

variable {α : Type} {p : Plan α} {folder : Folder} {finish : Finish α}

/-- A plan that has something to write ends as the writing does. -/
theorem perform_of_writing (folder : Folder) {w : Writing} (ends : p.finish = .ok finish)
    (writes : finish.writing = some w) :
    (p.perform folder).folder = (w.perform folder).2 ∧
      (p.perform folder).result =
        match (w.perform folder).1 with
        | none => .ok finish.result
        | some fault => .error fault := by
  rw [Plan.perform, ends]
  dsimp only
  rw [writes]
  dsimp only
  cases done : w.perform folder with
  | mk fault after => cases fault <;> exact ⟨rfl, rfl⟩

theorem folder_of_no_writing (nothing : ∀ finish w, p.finish = .ok finish → finish.writing ≠ some w) :
    (p.perform folder).folder = folder := by
  unfold Plan.perform
  split
  · rfl
  · rename_i finish ends
    split
    · rfl
    · rename_i writing writes
      exact absurd writes (nothing finish writing ends)

/-- A run that ends well has come to the end of its plan, and what it had to write is written. -/
theorem exists_finish_of_result {result : α} (done : (p.perform folder).result = .ok result) :
    ∃ finish, p.finish = .ok finish ∧ finish.result = result ∧
      ∀ w, finish.writing = some w → (w.perform folder).1 = none := by
  cases ends : p.finish with
  | error fault =>
      rw [Plan.perform, ends] at done
      cases done
  | ok finish =>
      refine ⟨finish, rfl, ?_⟩
      cases writes : finish.writing with
      | none =>
          simp only [Plan.perform, ends, writes] at done
          cases done
          exact ⟨rfl, nofun⟩
      | some w =>
          rw [(perform_of_writing folder ends writes).2] at done
          cases noFault : (w.perform folder).1 with
          | none =>
              rw [noFault] at done
              cases done
              refine ⟨rfl, fun other same => ?_⟩
              cases same
              exact noFault
          | some fault =>
              rw [noFault] at done
              cases done

end Plan

namespace Example

/-- No setting is made, texts are shown as they stand, and a line of 64 GiB does not fit into memory. -/
def plainSettings : Settings := .unset ⟨id, Binary64.twoTo 36⟩

def plainDisplay : Display := ⟨id, []⟩

end Example

end DesignTokens
