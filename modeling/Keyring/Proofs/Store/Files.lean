import Keyring.Store.Files

/-!
# `Keyring.Proofs.Store.Files`: what changes in a tree of files

What stands at each path after an entry was put into a tree or taken out of it,
and where paths lead then. The theorems:

* `entry?_insert`, `entry?_erase`: a change shows at its own path alone.
* `walk_append`, `resolve_name`: a name below a path is looked up in the
  directory that the path leads to.
* `resolve_name_eq_error`: without such a directory no name is found.
* `walk_of_keepsDirectories`: a path leads to the same place as long as no
  directory is lost.
* `walk_congr`, `read_congr`: trees with the same entries answer alike.
* `read_name`, `write_name`, `remove_name`, `rename_name`: what the calls come to
  on names below a directory.
* `isDirectory_of_makeDirectories`, `makeDirectories_of_isDirectory`: where a
  directory was made there is one, and to make it again changes nothing.
-/

set_option autoImplicit false

namespace Keyring.Files

variable {files files' : Files} {path place here home : Path} {names : List String}

/-! ### Entries -/

/-- The root is a directory, in every tree. It needs no entry of its own. -/
@[simp] theorem entry?_root (files : Files) : files.entry? [] = some .directory := rfl

/-- What stands at another path than the root is looked up among the entries. -/
theorem entry?_of_ne_root (hpath : path ≠ []) (files : Files) :
    files.entry? path = files.entries.lookup path := by
  simp [ entry?, hpath]

/-- An entry that is put into a tree shows at its own path alone. The root is excluded,
because it is a directory without an entry. -/
theorem entry?_insert (hpath : path ≠ []) (entry : Entry) (files : Files) (other : Path) :
    Files.entry? (files.insert path entry) other
      = if other = path then some entry else files.entry? other := by
  by_cases hroot : other = []
  · subst hroot
    simp [Ne.symm hpath]
  · rw [entry?_of_ne_root hroot, entry?_of_ne_root hroot]
    exact Entries.lookup_insert path other entry files.entries

/-- An entry that is taken out of a tree is missing at its own path alone. It holds whether
or not there was an entry. -/
theorem entry?_erase (hpath : path ≠ []) (files : Files) (other : Path) :
    Files.entry? (files.erase path) other = if other = path then none else files.entry? other := by
  by_cases hroot : other = []
  · subst hroot
    simp [Ne.symm hpath]
  · rw [entry?_of_ne_root hroot, entry?_of_ne_root hroot]
    exact Entries.lookup_filter_ne path other files.entries

/-! ### Walking -/

/-- Every directory of a tree is one of the other tree. -/
def KeepsDirectories (files files' : Files) : Prop :=
  ∀ path, files.entry? path = some .directory → files'.entry? path = some .directory

/-- No directory is lost when an entry is put where none stood. Writing a file is such a
step, because a directory in its place is an error. -/
theorem KeepsDirectories.insert (hpath : path ≠ []) (hfree : files.entry? path ≠ some .directory)
    (entry : Entry) : KeepsDirectories files (files.insert path entry) := by
  intro other hother
  have hne : other ≠ path := by
    rintro rfl
    exact hfree hother
  rw [entry?_insert hpath, if_neg hne]
  exact hother

/-- No directory is lost when an entry is taken out that is none. -/
theorem KeepsDirectories.erase (hpath : path ≠ []) (hfree : files.entry? path ≠ some .directory) :
    KeepsDirectories files (files.erase path) := by
  intro other hother
  have hne : other ≠ path := by
    rintro rfl
    exact hfree hother
  rw [entry?_erase hpath, if_neg hne]
  exact hother

/-- Where one name leads to from what stands at a path. -/
def step (files : Files) (here : Path) (name : String) : Except IoError Path :=
  match files.entry? here with
  | none => .error .notFound
  | some (.file _) => .error .notDirectory
  | some .directory =>
    if name = "." then .ok here
    else if name = ".." then .ok here.dropLast
    else if maxName < name.utf8ByteSize then .error .nameTooLong
    else .ok (here ++ [name])

/-- A walk takes one name after the other. It ends at the first name that is not found. -/
theorem walk_cons (files : Files) (here : Path) (name : String) (rest : List String) :
    files.walk here (name :: rest)
      = (files.step here name).bind fun next => files.walk next rest := by
  rw [walk, step]
  -- What stands here decides whether a name is looked for; then the name itself does.
  cases files.entry? here with
  | none => rfl
  | some entry =>
      cases entry with
      | file bytes => rfl
      | directory =>
          dsimp only
          split
          · rfl
          · split
            · rfl
            · split <;> rfl

/-- A walk goes on from where its first part leads. If the first part leads nowhere the whole
does not. -/
theorem walk_append (files : Files) (here : Path) (names rest : List String) :
    files.walk here (names ++ rest)
      = (files.walk here names).bind fun next => files.walk next rest := by
  induction names generalizing here with
  | nil => rfl
  | cons name names ih =>
      rw [List.cons_append, walk_cons, walk_cons]
      cases files.step here name with
      | error e => rfl
      | ok next => exact ih next

/-- A name leads to the same place as long as no directory is lost: a step asks only whether
a directory stands there. -/
theorem step_of_keepsDirectories (hkeeps : KeepsDirectories files files') {name : String}
    (hstep : files.step here name = .ok place) : files'.step here name = .ok place := by
  rw [step] at hstep ⊢
  cases hentry : files.entry? here with
  | none => simp [hentry] at hstep
  | some entry =>
      cases entry with
      | file bytes => simp [hentry] at hstep
      | directory =>
          rw [hkeeps here hentry]
          rw [hentry] at hstep
          exact hstep

/-- A path leads to the same place as long as no directory is lost. Induction on the names
that are still to be looked up. A walk asks of the tree only which places are directories. -/
theorem walk_of_keepsDirectories (hkeeps : KeepsDirectories files files')
    (hwalk : files.walk here names = .ok place) : files'.walk here names = .ok place := by
  induction names generalizing here with
  | nil => exact hwalk
  | cons name rest ih =>
      rw [walk_cons] at hwalk ⊢
      cases hstep : files.step here name with
      | error e =>
          rw [hstep] at hwalk
          cases hwalk
      | ok next =>
          rw [hstep] at hwalk
          rw [step_of_keepsDirectories hkeeps hstep]
          exact ih hwalk

/-- Where a path leads depends on what stands at each path, and not on how the tree is held.
Two trees with their entries in different orders are the same tree to every caller. -/
theorem walk_congr (h : ∀ path, files'.entry? path = files.entry? path) (here : Path)
    (names : List String) : files'.walk here names = files.walk here names := by
  induction names generalizing here with
  | nil => rfl
  | cons name rest ih =>
      have hstep : files'.step here name = files.step here name := by rw [step, step, h]
      rw [walk_cons, walk_cons, hstep]
      cases files.step here name with
      | error e => rfl
      | ok next => exact ih next

/-- So does what is read. -/
theorem read_congr (h : ∀ path, files'.entry? path = files.entry? path) (path : Path) :
    files'.read path = files.read path := by
  have hresolve : files'.resolve path = files.resolve path := by
    rw [resolve, resolve, walk_congr h]
  rw [read, read, hresolve]
  cases files.resolve path with
  | error e => rfl
  | ok place =>
      simp only [bind, Except.bind, h]

/-- A dot leads nowhere else, so dots may be left out of a path. -/
theorem walk_filter_dot (hwalk : files.walk here names = .ok place) :
    files.walk here (names.filter (· ≠ ".")) = .ok place := by
  induction names generalizing here with
  | nil => exact hwalk
  | cons name rest ih =>
      rw [walk_cons] at hwalk
      cases hstep : files.step here name with
      | error e =>
          rw [hstep] at hwalk
          cases hwalk
      | ok next =>
          rw [hstep] at hwalk
          by_cases hdot : name = "."
          · -- From a directory the dot leads back to it.
            have hsame : next = here := by
              rw [step, hdot] at hstep
              split at hstep
              · cases hstep
              · cases hstep
              · exact (Except.ok.inj hstep).symm
            subst hsame
            rw [List.filter_cons_of_neg (by simpa using hdot)]
            exact ih hwalk
          · rw [List.filter_cons_of_pos (by simpa using hdot), walk_cons, hstep]
            exact ih hwalk

/-! ### Names below a directory -/

/-- A name that is looked up as it is, and is not too long. -/
structure Plain (name : String) : Prop where
  ne_dot : name ≠ "."
  ne_dots : name ≠ ".."
  size_le : name.utf8ByteSize ≤ maxName

/-- A path leads to a directory. -/
structure LeadsTo (files : Files) (path home : Path) : Prop where
  walk : files.walk [] path = .ok home
  directory : files.entry? home = some .directory

/-- A path leads to its directory as long as none is lost. Every place on the way is a
directory, and so is the last one. -/
theorem LeadsTo.of_keepsDirectories (h : files.LeadsTo path home)
    (hkeeps : KeepsDirectories files files') : files'.LeadsTo path home where
  walk := walk_of_keepsDirectories hkeeps h.walk
  directory := hkeeps home h.directory

/-- A plain name below a path is looked up in the directory that the path leads to, unless
the path is too long by now. The name has no separator and is neither a dot nor two, which
the names of files made from digests never are. -/
theorem resolve_name (h : files.LeadsTo path home) {name : String} (hname : Plain name) :
    files.resolve (path ++ [name])
      = if maxPath < pathSize (path ++ [name]) then .error .nameTooLong
        else .ok (home ++ [name]) := by
  have hwalk : files.walk [] (path ++ [name]) = .ok (home ++ [name]) := by
    rw [walk_append, h.walk]
    show files.walk home [name] = _
    rw [walk_cons, step, h.directory]
    simp only [if_neg hname.ne_dot, if_neg hname.ne_dots, if_neg (Nat.not_lt.2 hname.size_le)]
    rfl
  rw [resolve, hwalk]

/-- No name can be looked up below a path that leads to no directory. Something on the way is
missing or is no directory, or the path is too long. -/
theorem resolve_name_eq_error (h : ∀ home, ¬files.LeadsTo path home) (name : String) :
    ∃ e, files.resolve (path ++ [name]) = .error e := by
  rw [Files.resolve]
  split
  · exact ⟨_, rfl⟩
  · rw [walk_append]
    cases hwalk : files.walk [] path with
    | error e => exact ⟨e, rfl⟩
    | ok place =>
        -- The path ends at a file, or nothing stands there.
        show ∃ e, files.walk place [name] = .error e
        rw [walk_cons, step]
        cases hentry : files.entry? place with
        | none => exact ⟨_, rfl⟩
        | some entry =>
            cases entry with
            | file bytes => exact ⟨_, rfl⟩
            | directory => exact absurd ⟨hwalk, hentry⟩ (h place)

/-- A path that is not too long is resolved to the directory that it leads to. -/
theorem LeadsTo.resolve (h : files.LeadsTo path home) (hsize : pathSize path ≤ maxPath) :
    files.resolve path = .ok home := by
  rw [Files.resolve, if_neg (Nat.not_lt.2 hsize)]
  exact h.walk

/-- A name makes a path longer by its bytes and a separator. It is what the limit on the
length of a path counts. -/
theorem pathSize_name (path : Path) (name : String) :
    pathSize (path ++ [name]) = pathSize path + name.utf8ByteSize + 1 := by
  induction path with
  | nil => simp [pathSize]
  | cons first rest ih =>
      simp only [pathSize, List.cons_append, List.foldr_cons] at ih ⊢
      omega

/-! ### Calls on names below a directory -/

section Calls
variable {name other : String} {bytes : Bytes}

/-- What is read under a name below a directory is the file that stands there. The length of
the path is tested first, as the operating system does. -/
theorem read_name (h : files.LeadsTo path home) (hname : Plain name) :
    files.read (path ++ [name])
      = if maxPath < pathSize (path ++ [name]) then .error .nameTooLong
        else match files.entry? (home ++ [name]) with
          | none => .error .notFound
          | some .directory => .error .isDirectory
          | some (.file bytes) => .ok bytes := by
  rw [read, resolve_name h hname]
  split <;> rfl

/-- A file is written under a name below a directory, unless a directory stands there. An old
file of that name is replaced as a whole. -/
theorem write_name (h : files.LeadsTo path home) (hname : Plain name) (bytes : Bytes) :
    files.write (path ++ [name]) bytes
      = if maxPath < pathSize (path ++ [name]) then .error .nameTooLong
        else if files.entry? (home ++ [name]) = some .directory then .error .isDirectory
        else .ok (files.insert (home ++ [name]) (.file bytes)) := by
  rw [write, resolve_name h hname]
  split <;> rfl

/-- A file is removed under a name below a directory, if there is one. Removing a name that
is not there is an error of the file system, which the store turns into a success. -/
theorem remove_name (h : files.LeadsTo path home) (hname : Plain name) :
    files.remove (path ++ [name])
      = if maxPath < pathSize (path ++ [name]) then .error .nameTooLong
        else match files.entry? (home ++ [name]) with
          | none => .error .notFound
          | some .directory => .error .isDirectory
          | some (.file _) => .ok (files.erase (home ++ [name])) := by
  rw [remove, resolve_name h hname]
  split <;> rfl

/-- A file is moved to another name in its directory, unless a directory stands there. The
old file under the new name is replaced in the same step, which makes a draft safe. -/
theorem rename_name (h : files.LeadsTo path home) (hname : Plain name) (hother : Plain other)
    (hsize : pathSize (path ++ [name]) ≤ maxPath) (hsize' : pathSize (path ++ [other]) ≤ maxPath)
    (hfile : files.entry? (home ++ [name]) = some (.file bytes)) :
    files.rename (path ++ [name]) (path ++ [other])
      = if files.entry? (home ++ [other]) = some .directory then .error .isDirectory
        else .ok ((files.erase (home ++ [name])).insert (home ++ [other]) (.file bytes)) := by
  rw [rename, read_name h hname, resolve_name h hname, resolve_name h hother, hfile]
  simp only [if_neg (Nat.not_lt.2 hsize), if_neg (Nat.not_lt.2 hsize')]
  rfl

end Calls

/-! ### Making directories -/

/-- There is a directory exactly if the path is not too long and leads to one. -/
theorem isDirectory_iff (files : Files) (path : Path) :
    files.isDirectory path = true ↔ pathSize path ≤ maxPath ∧ ∃ home, files.LeadsTo path home := by
  constructor
  · intro h
    rw [isDirectory] at h
    cases hresolve : files.resolve path with
    | error e => simp [hresolve] at h
    | ok place =>
        -- The path leads to a place, and a directory stands there.
        have hentry : files.entry? place = some .directory := by simpa [hresolve] using h
        rw [resolve] at hresolve
        split at hresolve
        · cases hresolve
        · rename_i hlong
          exact ⟨Nat.not_lt.1 hlong, place, hresolve, hentry⟩
  · rintro ⟨hsize, home, h⟩
    simp [isDirectory, h.resolve hsize, h.directory]

/-- To make a directory that is there changes nothing, and is no fault. -/
theorem ensureDirectory_of_isDirectory (h : files.isDirectory path = true) :
    files.ensureDirectory path = (.ok (), files) := by
  obtain ⟨hsize, home, hleads⟩ := (isDirectory_iff files path).1 h
  have hmake : files.makeDirectory path = .error .alreadyExists := by
    simp [makeDirectory, hleads.resolve hsize, hleads.directory, bind, Except.bind]
  simp [ensureDirectory, hmake, h]

/-- A directory that was made is there. Either it was made, or it could not be made because
it was there already. -/
theorem isDirectory_of_ensureDirectory (h : files.ensureDirectory path = (.ok (), files')) :
    files'.isDirectory path = true := by
  rw [ensureDirectory] at h
  cases hmake : files.makeDirectory path with
  | error e =>
      rw [hmake] at h
      dsimp only at h
      split at h
      · rename_i hthere
        obtain ⟨-, rfl⟩ := Prod.mk.inj h
        exact hthere.2
      · cases h
  | ok made =>
      rw [hmake] at h
      obtain ⟨-, rfl⟩ := Prod.mk.inj h
      rw [makeDirectory] at hmake
      cases hresolve : files.resolve path with
      | error e => simp [hresolve, bind, Except.bind] at hmake
      | ok place =>
          simp only [hresolve, bind, Except.bind] at hmake
          split at hmake
          · cases hmake
          · cases hmake
          · rename_i hfree
            split at hmake
            · cases hmake
            · -- A new directory stands where nothing stood, so the way to it is as it was.
              obtain rfl := Except.ok.inj hmake
              have hroot : place ≠ [] := by
                rintro rfl
                simp at hfree
              have hkeeps : KeepsDirectories files (files.insert place .directory) :=
                KeepsDirectories.insert hroot (by simp [hfree]) .directory
              rw [resolve] at hresolve
              split at hresolve
              · cases hresolve
              · rename_i hlong
                refine (isDirectory_iff _ path).2 ⟨Nat.not_lt.1 hlong, place, ?_, ?_⟩
                · exact walk_of_keepsDirectories hkeeps hresolve
                · simp [entry?_insert hroot]

/-- A directory that was made with those above it is there. Whatever had to be made above it,
the last step makes the directory itself. -/
theorem isDirectory_of_makeDirectories (h : files.makeDirectories path = (.ok (), files')) :
    files'.isDirectory path = true := by
  rw [makeDirectories] at h
  split at h
  · split at h
    · -- The root is there always.
      rename_i hroot
      rw [List.isEmpty_iff.1 hroot]
      simp [isDirectory, resolve, pathSize, walk]
    · split at h
      · cases h
      · exact isDirectory_of_ensureDirectory h
  · exact isDirectory_of_ensureDirectory h

/-- To make a directory that is there with those above it changes nothing. So a store may be
opened any number of times. -/
theorem makeDirectories_of_isDirectory (h : files.isDirectory path = true) :
    files.makeDirectories path = (.ok (), files) := by
  rw [makeDirectories, ensureDirectory_of_isDirectory h]

end Keyring.Files
