import Keyring.Proofs.Store.Directory

/-!
# `Keyring.Proofs.Store.Atomic`: a text is replaced as a whole or not at all

A text is written to a draft, and the draft takes the place of the file. Either
step may fail: because of what stands in the way, because the directory is not
there, or because the disk gives up halfway. Whatever the tree of files is and
whatever fails, a reader meets the old text or the new one.

* `Disk`: a file system that may fail at any call, and what it still promises.
* `Disk.put_cases`: putting a text on such a disk replaces the file, or leaves at
  most the draft changed.
* `get_of_onlyDraft`: no key is read from a draft.
* `calls_confined`: what the calls to a directory change, on any disk and any tree.
-/

set_option autoImplicit false

namespace Keyring

open Files (LeadsTo KeepsDirectories pathSize maxPath)

/-- Two trees differ at most at these paths. -/
def Files.ChangesOnly (places : Path → Prop) (files files' : Files) : Prop :=
  ∀ path, files'.entry? path ≠ files.entry? path → places path

/-- What may be written at a path: the place that the path leads to, where no directory stands. -/
def Files.IsTarget (files : Files) (path place : Path) : Prop :=
  files.resolve path = .ok place ∧ files.entry? place ≠ some .directory

/-- A write changes the file that it writes, and only if the path leads to a place that is no
directory. -/
theorem Files.changesOnly_of_write {files files' : Files} {path : Path} {bytes : Bytes}
    (h : files.write path bytes = .ok files') :
    ChangesOnly (files.IsTarget path) files files' := by
  rw [Files.write] at h
  cases hresolve : files.resolve path with
  | error e =>
      rw [hresolve] at h
      cases h
  | ok place =>
      rw [hresolve] at h
      change (if files.entry? place = some .directory then _ else _) = _ at h
      split at h
      · cases h
      · rename_i hfree
        obtain rfl := Except.ok.inj h
        -- The root is a directory, so it is not what the path leads to.
        have hroot : place ≠ [] := by
          rintro rfl
          exact hfree (entry?_root files)
        intro other hchanged
        rw [entry?_insert hroot] at hchanged
        by_cases hother : other = place
        · rw [hother]
          exact ⟨hresolve, hfree⟩
        · rw [if_neg hother] at hchanged
          exact absurd rfl hchanged

/-! ### Disks -/

/-- A file system in which a call may fail at any time, not only for what stands in the way. What
succeeds does what it does to a tree of files. A write that fails may have begun: it leaves what it
likes in the file that it was to write. A move happens or does not. -/
structure Disk where
  write (files : Files) (path : Path) (bytes : Bytes) : Except IoError Unit × Files
  rename (files : Files) (source target : Path) : Except IoError Unit × Files
  write_ok {files files' : Files} {path : Path} {bytes : Bytes} :
    write files path bytes = (.ok (), files') → files.write path bytes = .ok files'
  write_error {files files' : Files} {path : Path} {bytes : Bytes} {e : IoError} :
    write files path bytes = (.error e, files') →
      Files.ChangesOnly (files.IsTarget path) files files'
  rename_ok {files files' : Files} {source target : Path} :
    rename files source target = (.ok (), files') → files.rename source target = .ok files'
  rename_error {files files' : Files} {source target : Path} {e : IoError} :
    rename files source target = (.error e, files') → files' = files

namespace Disk

/-- A call that leaves the tree as it is where it fails. -/
def settle (files : Files) : Except IoError Files → Except IoError Unit × Files
  | .ok files' => (.ok (), files')
  | .error e => (.error e, files)

/-- A call of the tree that was done has the tree that it made. -/
theorem settle_eq_ok {files files' : Files} {result : Except IoError Files}
    (h : settle files result = (.ok (), files')) : result = .ok files' := by
  cases result with
  | error e => cases h
  | ok made => exact congrArg Except.ok (Prod.mk.inj h).2

/-- A call of the tree that was refused leaves the tree as it was. -/
theorem settle_eq_error {files files' : Files} {result : Except IoError Files} {e : IoError}
    (h : settle files result = (.error e, files')) : files' = files := by
  cases result with
  | error _ => exact (Prod.mk.inj h).2.symm
  | ok made => cases h

/-- A disk that fails for what stands in the way and for nothing else. -/
def sound : Disk where
  write files path bytes := settle files (files.write path bytes)
  rename files source target := settle files (files.rename source target)
  write_ok := settle_eq_ok
  write_error h _ hne := by
    rw [settle_eq_error h] at hne
    exact absurd rfl hne
  rename_ok := settle_eq_ok
  rename_error := settle_eq_error

/-- Writes the text of a key on a disk, as `Directory.put` does on a tree. -/
def put (disk : Disk) (key value : String) (d : Directory) : Except StoreError Unit × Directory :=
  match disk.write d.files (d.draftOf key) (Bytes.ofText value) with
  | (.error e, files) => (.error (.io e), { d with files })
  | (.ok (), files) =>
    match disk.rename files (d.draftOf key) (d.fileOf key) with
    | (.error e, files) => (.error (.io e), { d with files })
    | (.ok (), files) => (.ok (), { d with files })

/-- Putting a text on a disk that does everything it is told is putting it into the tree. -/
theorem put_sound (key value : String) (d : Directory) :
    sound.put key value d = d.put key value := by
  rw [put, Directory.put]
  show (match settle d.files (d.files.write (d.draftOf key) (Bytes.ofText value)) with
    | (.error e, files) => _
    | (.ok (), files) => _) = _
  cases d.files.write (d.draftOf key) (Bytes.ofText value) with
  | error e => rfl
  | ok files =>
      show (match settle files (files.rename (d.draftOf key) (d.fileOf key)) with
        | (.error e, files) => _
        | (.ok (), files) => _) = _
      cases hrename : files.rename (d.draftOf key) (d.fileOf key) <;> simp only [hrename, settle]

end Disk

namespace Directory

variable {d d' : Directory} {home : Path} {key value : String} {files : Files}

/-! ### The two paths of a key -/

/-- The path is that of the key's file. -/
def IsFile (d : Directory) (key : String) (path : Path) : Prop :=
  ∃ home, d.files.LeadsTo d.place home ∧ path = home ++ [fileName key]

/-- The path is that of the key's draft. -/
def IsDraft (d : Directory) (key : String) (path : Path) : Prop :=
  ∃ home, d.files.LeadsTo d.place home ∧ path = home ++ [draftName key]

/-- The draft of a key is its file with another ending. So the two names differ in length,
and neither is the other. -/
theorem draftName_eq (key : String) : draftName key = fileName key ++ ".tmp" := by
  rw [draftName, fileName, String.append_assoc]
  rfl

/-- The file system finds a draft only in a directory, at its own path. -/
theorem isDraft_of_resolve {place : Path} (h : d.files.resolve (d.draftOf key) = .ok place) :
    d.IsDraft key place := by
  rw [show d.draftOf key = d.place ++ [draftName key] from rfl] at h
  by_cases hleads : ∃ home, d.files.LeadsTo d.place home
  · obtain ⟨home, hleads⟩ := hleads
    rw [Files.resolve_name hleads (plain_draftName key)] at h
    split at h
    · cases h
    · exact ⟨home, hleads, (Except.ok.inj h).symm⟩
  · obtain ⟨e, herror⟩ := Files.resolve_name_eq_error (not_exists.1 hleads) (draftName key)
    rw [herror] at h
    cases h

/-! ### Drafts -/

/-- Two trees differ at most at the draft of a key, and no directory was lost there. -/
def OnlyDraft (d : Directory) (key : String) (files : Files) : Prop :=
  Files.ChangesOnly (fun path => d.IsDraft key path ∧ d.files.entry? path ≠ some .directory)
    d.files files

/-- A tree that differs in a draft only has lost no directory, because a draft is none. -/
theorem OnlyDraft.keepsDirectories (h : d.OnlyDraft key files) :
    KeepsDirectories d.files files := by
  intro path hpath
  by_contra hlost
  exact (h path fun hsame => hlost (hsame.trans hpath)).2 hpath

/-- The path of a key's file does not depend on the tree. It is made from the place of the
directory and the digest of the key. -/
theorem fileOf_withFiles (d : Directory) (files : Files) (key : String) :
    fileOf { d with files } key = d.fileOf key :=
  rfl

/-- No key is read from a draft, since no draft has the name of a file. -/
theorem get_of_onlyDraft (h : d.OnlyDraft key files) (other : String) :
    get other { d with files } = d.get other := by
  by_cases hleads : ∃ home, d.files.LeadsTo d.place home
  · obtain ⟨home, hleads⟩ := hleads
    have hsame : files.entry? (home ++ [fileName other])
        = d.files.entry? (home ++ [fileName other]) := by
      by_contra hchanged
      obtain ⟨⟨home', -, hpath⟩, -⟩ := h _ hchanged
      have hname := (List.append_inj' hpath (by simp)).2
      exact fileName_ne_draftName other key (List.singleton_inj.1 hname)
    have hkept : LeadsTo files d.place home := hleads.of_keepsDirectories h.keepsDirectories
    rw [get_eq hleads, get_eq (d := { d with files }) hkept, fileOf_withFiles]
    dsimp only
    rw [hsame]
  -- A directory that is not there has no draft, so nothing changed at all.
  · have hsame : ∀ path, files.entry? path = d.files.entry? path := by
      intro path
      by_contra hchanged
      obtain ⟨⟨home, hhome, -⟩, -⟩ := h path hchanged
      exact hleads ⟨home, hhome⟩
    rw [get, get, fileOf_withFiles, Files.read_congr hsame]

/-- Where a draft is written nothing else changes. The path of the draft leads to one place,
which is a draft because the directory is where it was opened. -/
theorem onlyDraft_of_target
    (h : Files.ChangesOnly (d.files.IsTarget (d.draftOf key)) d.files files) :
    d.OnlyDraft key files := by
  intro path hchanged
  obtain ⟨hresolve, hfree⟩ := h path hchanged
  exact ⟨isDraft_of_resolve hresolve, hfree⟩

/-! ### What a call may change -/

/-- A text that was put is in its place, and the directory was there. -/
theorem replaced_of_put (h : d.put key value = (.ok (), d')) :
    ∃ home, d.files.LeadsTo d.place home ∧ pathSize (d.draftOf key) ≤ maxPath ∧
      KeepsDirectories d.files (d.replaced home key value) ∧
      d' = { d with files := d.replaced home key value } := by
  by_cases hleads : ∃ home, d.files.LeadsTo d.place home
  · obtain ⟨home, hleads⟩ := hleads
    rw [put_eq hleads] at h
    split at h
    · cases h
    · rename_i hlong
      split at h
      · cases h
      · rename_i hdraft
        split at h
        · cases h
        · rename_i hfile
          -- Behind the three tests, of the length, of the draft and of the file, the text takes
          -- its place.
          exact ⟨home, hleads, Nat.not_lt.1 hlong, keepsDirectories_replaced value hfile hdraft,
            (Prod.mk.inj h).2.symm⟩
  · -- Without the directory the draft cannot be written.
    obtain ⟨e, herror⟩ := Files.resolve_name_eq_error (not_exists.1 hleads) (draftName key)
    rw [put, show d.draftOf key = d.place ++ [draftName key] from rfl, Files.write, herror] at h
    cases h

/-- A text that took the place of the file is read under its key. -/
theorem get_replaced (hleads : d.files.LeadsTo d.place home)
    (hshort : pathSize (d.draftOf key) ≤ maxPath)
    (hkeeps : KeepsDirectories d.files (d.replaced home key value)) :
    get key { d with files := d.replaced home key value } = .ok (some value) := by
  -- The name of the file is four bytes shorter than that of the draft.
  have hfits : ¬maxPath < pathSize (d.fileOf key) := by
    rw [show d.draftOf key = d.place ++ [draftName key] from rfl, Files.pathSize_name,
      size_draftName] at hshort
    rw [show d.fileOf key = d.place ++ [fileName key] from rfl, Files.pathSize_name, size_fileName]
    omega
  have hkept : LeadsTo (d.replaced home key value) d.place home :=
    hleads.of_keepsDirectories hkeeps
  rw [get_eq (d := { d with files := d.replaced home key value }) hkept, fileOf_withFiles,
    if_neg hfits]
  dsimp only
  rw [entry?_replaced, if_pos rfl]
  simp [textOf]

/-- Another key is read as before, if it has another digest: its file has another name. -/
theorem get_replaced_other (hleads : d.files.LeadsTo d.place home)
    (hkeeps : KeepsDirectories d.files (d.replaced home key value)) {other : String}
    (hother : Sha256.digest (Bytes.ofText other) ≠ Sha256.digest (Bytes.ofText key)) :
    get other { d with files := d.replaced home key value } = d.get other := by
  have hname : fileName other ≠ fileName key := by
    intro h
    exact hother ((keyName_eq_iff other key).1 (by simpa [fileName] using h))
  have hkept : LeadsTo (d.replaced home key value) d.place home :=
    hleads.of_keepsDirectories hkeeps
  -- The file of the other key is neither the file nor the draft of this one.
  have hsame : Files.entry? (d.replaced home key value) (home ++ [fileName other])
      = d.files.entry? (home ++ [fileName other]) := by
    rw [entry?_replaced, if_neg (by simpa using hname),
      if_neg (by simpa using fileName_ne_draftName other key)]
  rw [get_eq hleads, get_eq (d := { d with files := d.replaced home key value }) hkept,
    fileOf_withFiles]
  dsimp only
  rw [hsame]

end Directory

/-- Putting a text on a disk fails and changes at most the draft, or does what it does to a
tree. Both of its calls that can fail come before the file has changed: the draft is written
first, and moving it is the last step. -/
theorem Disk.put_cases (disk : Disk) (key value : String) (d : Directory) :
    (∃ e files, disk.put key value d = (.error (.io e), { d with files }) ∧
      d.OnlyDraft key files) ∨
    ∃ d', disk.put key value d = (.ok (), d') ∧ d.put key value = (.ok (), d') := by
  rw [put, Directory.put]
  cases hwrite : disk.write d.files (d.draftOf key) (Bytes.ofText value) with
  | mk result files =>
      cases result with
      | error e =>
          exact .inl ⟨e, files, rfl, Directory.onlyDraft_of_target (disk.write_error hwrite)⟩
      | ok done =>
          have hdrafted := disk.write_ok hwrite
          rw [hdrafted]
          dsimp only
          cases hrename : disk.rename files (d.draftOf key) (d.fileOf key) with
          | mk result files' =>
              cases result with
              -- The draft stays where it was written.
              | error e =>
                  rw [disk.rename_error hrename]
                  exact .inl ⟨e, files, rfl,
                    Directory.onlyDraft_of_target (Files.changesOnly_of_write hdrafted)⟩
              | ok done =>
                  rw [disk.rename_ok hrename]
                  exact .inr ⟨_, rfl, rfl⟩

namespace Directory

/-- Deleting changes the file of a key and nothing else, and changes nothing if it fails. -/
theorem delete_cases (d : Directory) (key : String) :
    (d.delete key).2 = d ∨ ∃ home, d.files.LeadsTo d.place home ∧
      d.delete key = (.ok (), { d with files := d.files.erase (home ++ [fileName key]) }) := by
  by_cases hleads : ∃ home, d.files.LeadsTo d.place home
  · obtain ⟨home, hleads⟩ := hleads
    rw [delete_eq hleads]
    split
    · exact .inl rfl
    · split
      · exact .inl rfl
      · exact .inl rfl
      · -- There was a file, and it is taken out of the tree.
        exact .inr ⟨home, hleads, rfl⟩
  · -- Without the directory there is nothing to delete, which is an error or none.
    obtain ⟨e, herror⟩ := Files.resolve_name_eq_error (not_exists.1 hleads) (fileName key)
    have hremove : d.files.remove (d.place ++ [fileName key]) = .error e := by
      rw [Files.remove, herror]
      rfl
    rw [delete, show d.fileOf key = d.place ++ [fileName key] from rfl, hremove]
    cases e <;> exact .inl rfl

/-- What the calls on a key change in a directory, on any disk. -/
structure Confined (d : Directory) (key : String) : Prop where
  /-- The key shows in the two names as 64 digits, whatever characters it has. -/
  names : fileName key = Hex.encode (Sha256.digest (Bytes.ofText key)) ++ ".json" ∧
    draftName key = fileName key ++ ".tmp" ∧ (keyName key).toList.length = 64 ∧
    ∀ c ∈ (keyName key).toList, c ∈ "0123456789abcdef".toList
  /-- Reading changes nothing. -/
  get : (Store.get key d).2 = d
  /-- Putting a text into the tree is putting it on a disk that fails only for what stands there. -/
  put_tree : ∀ value, Store.put key value d = Disk.sound.put key value d
  /-- Putting a text touches the two paths of the key. -/
  put : ∀ (disk : Disk) value, (disk.put key value d).2.place = d.place ∧
    Files.ChangesOnly (fun path => d.IsFile key path ∨ d.IsDraft key path) d.files
      (disk.put key value d).2.files
  /-- If it fails, at most the draft changed, and every key is read as before. -/
  put_error : ∀ (disk : Disk) value e d', disk.put key value d = (.error e, d') →
    Files.ChangesOnly (d.IsDraft key) d.files d'.files ∧ ∀ other, d'.get other = d.get other
  /-- If it succeeds, the text is read, and every key with another digest is read as before. -/
  put_ok : ∀ (disk : Disk) value d', disk.put key value d = (.ok (), d') →
    d'.get key = .ok (some value) ∧
    ∀ other, Sha256.digest (Bytes.ofText other) ≠ Sha256.digest (Bytes.ofText key) →
      d'.get other = d.get other
  /-- Deleting touches the path of the key's file. -/
  delete : (Store.delete key d).2.place = d.place ∧
    Files.ChangesOnly (d.IsFile key) d.files (Store.delete key d).2.files
  /-- If it fails, nothing changed. -/
  delete_error : ∀ e d', Store.delete key d = (.error e, d') → d' = d

/-- The calls on a key change no path but those of its file and its draft, whatever stands in the
tree, and whether or not the directory is there. Putting a text is all or nothing for every reader:
if it fails, all keys are read as before, also if the draft was written only in part. -/
theorem calls_confined (d : Directory) (key : String) : d.Confined key where
  names := by
    refine ⟨rfl, draftName_eq key, ?_, fun c hc => Hex.mem_digits_of_mem_encode hc⟩
    rw [keyName, Hex.length_encode, Sha256.length_digest]
  get := rfl
  put_tree value := (Disk.put_sound key value d).symm
  put disk value := by
    rcases disk.put_cases key value d with ⟨e, files, hrun, honly⟩ | ⟨d', hrun, hput⟩
    · rw [hrun]
      exact ⟨rfl, fun path hchanged => .inr (honly path hchanged).1⟩
    · obtain ⟨home, hleads, -, -, rfl⟩ := replaced_of_put hput
      rw [hrun]
      refine ⟨rfl, fun path hchanged => ?_⟩
      by_contra hpath
      rw [not_or] at hpath
      -- Apart from the two paths, what stands after the move stood there before.
      apply hchanged
      rw [entry?_replaced, if_neg fun h => hpath.1 ⟨home, hleads, h⟩,
        if_neg fun h => hpath.2 ⟨home, hleads, h⟩]
  put_error disk value e d' h := by
    rcases disk.put_cases key value d with ⟨e', files, hrun, honly⟩ | ⟨d', hrun, -⟩
    · obtain rfl := (Prod.mk.inj (h.symm.trans hrun)).2
      exact ⟨fun path hchanged => (honly path hchanged).1, get_of_onlyDraft honly⟩
    · cases h.symm.trans hrun
  put_ok disk value d' h := by
    rcases disk.put_cases key value d with ⟨e', files, hrun, -⟩ | ⟨d'', hrun, hput⟩
    · cases h.symm.trans hrun
    · obtain rfl := (Prod.mk.inj (h.symm.trans hrun)).2
      obtain ⟨home, hleads, hshort, hkeeps, rfl⟩ := replaced_of_put hput
      exact ⟨get_replaced hleads hshort hkeeps, fun other => get_replaced_other hleads hkeeps⟩
  delete := by
    show (d.delete key).2.place = d.place ∧ Files.ChangesOnly _ _ (d.delete key).2.files
    rcases d.delete_cases key with hsame | ⟨home, hleads, hrun⟩
    · rw [hsame]
      exact ⟨rfl, fun path hchanged => absurd rfl hchanged⟩
    · rw [hrun]
      refine ⟨rfl, fun path hchanged => ⟨home, hleads, ?_⟩⟩
      by_contra hpath
      apply hchanged
      rw [Files.entry?_erase (by simp), if_neg hpath]
  delete_error e d' h := by
    have hrun : d.delete key = (.error e, d') := h
    rcases d.delete_cases key with hsame | ⟨home, -, hdeleted⟩
    · rw [hrun] at hsame
      exact hsame
    · cases hrun.symm.trans hdeleted

end Directory

/-- A disk without room: a write that may begin empties its file and stops there. -/
def Disk.full : Disk where
  write files path _ :=
    match files.write path [] with
    | .ok files' => (.error .diskFull, files')
    | .error e => (.error e, files)
  rename := sound.rename
  write_ok {files} {files'} {path} {bytes} h := by
    cases hwrite : files.write path [] <;> simp [hwrite] at h
  write_error {files} {files'} {path} {bytes} {e} h := by
    cases hwrite : files.write path [] with
    | error e' =>
        simp only [hwrite] at h
        rw [← (Prod.mk.inj h).2]
        exact fun path hchanged => absurd rfl hchanged
    | ok made =>
        simp only [hwrite] at h
        rw [← (Prod.mk.inj h).2]
        exact Files.changesOnly_of_write hwrite
  rename_ok := sound.rename_ok
  rename_error := sound.rename_error

namespace Directory

/-- A directory with a text under a key and a draft from an earlier failure. -/
def littered : Directory :=
  ⟨⟨[(["store"], .directory), (["store", fileName "pool"], .file (Bytes.ofText "old")),
    (["store", draftName "pool"], .file [0xff])]⟩, ["store"]⟩

/-- The new text does not fit on the disk: the draft is empty then, and the old text is read. -/
theorem calls_confined_torn :
    (Disk.full.put "pool" "new" littered).2.files.entry? ["store", draftName "pool"]
        = some (.file []) ∧
      get "pool" (Disk.full.put "pool" "new" littered).2 = .ok (some "old") := by
  have hdraft : (Disk.full.put "pool" "new" littered).2.files.entry? ["store", draftName "pool"]
      = some (.file []) := by decide +kernel
  have hfails : (Disk.full.put "pool" "new" littered).1 = .error (.io .diskFull) := by
    decide +kernel
  have hold : littered.get "pool" = .ok (some "old") := by decide +kernel
  have hrun : Disk.full.put "pool" "new" littered
      = (.error (.io .diskFull), (Disk.full.put "pool" "new" littered).2) := by rw [← hfails]
  obtain ⟨-, hreads⟩ := (calls_confined littered "pool").put_error Disk.full "new" _ _ hrun
  exact ⟨hdraft, (hreads "pool").trans hold⟩

end Directory
end Keyring
