import Keyring.Proofs.Bytes.Hex
import Keyring.Proofs.Store.Files
import Keyring.Store.Directory

/-!
# `Keyring.Proofs.Store.Directory`: what the calls to a directory do

A key has two paths in a directory, that of its file and that of its draft; no
path belongs to two keys with different digests. The theorems:

* `get_eq`, `put_eq`, `delete_eq`: what the calls come to, by what stands at the
  two paths of the key.
* `entry?_replaced`: what stands where after a text was put there.
* `openedAt_of_openAt`, `OpenedAt.openAt_eq`: a directory that was opened is
  there, and to open it again changes nothing.
-/

set_option autoImplicit false

namespace Keyring

namespace Directory

open Files (LeadsTo KeepsDirectories Plain pathSize maxPath)

/-! ### The names of a key -/

/-- The name of a key's file. -/
def fileName (key : String) : String := keyName key ++ ".json"

/-- The name of a key's draft. -/
def draftName (key : String) : String := keyName key ++ ".json.tmp"

/-- The name of a key has 64 bytes, two for each byte of its digest. -/
theorem size_keyName (key : String) : (keyName key).utf8ByteSize = 64 := by
  show (Bytes.ofText (keyName key)).length = 64
  rw [keyName, Hex.ofText_encode, Hex.length_flatMap_pairBytes, Sha256.length_digest]

/-- The name of a file has 69 bytes, whatever the key is. It is the hex of a digest and an
ending of five bytes. -/
theorem size_fileName (key : String) : (fileName key).utf8ByteSize = 69 := by
  rw [fileName, String.utf8ByteSize_append, size_keyName]
  rfl

/-- The name of a draft has 73 bytes, whatever the key is. It is the hex of a digest and an
ending of nine bytes. -/
theorem size_draftName (key : String) : (draftName key).utf8ByteSize = 73 := by
  rw [draftName, String.utf8ByteSize_append, size_keyName]
  rfl

/-- A name of more than two bytes is neither of the two dots, and one of at most 255 bytes is
not too long. -/
theorem plain_of_size {name : String} (hlong : 2 < name.utf8ByteSize)
    (hshort : name.utf8ByteSize ≤ Files.maxName) : Plain name where
  ne_dot := by
    rintro rfl
    exact absurd hlong (by decide)
  ne_dots := by
    rintro rfl
    exact absurd hlong (by decide)
  size_le := hshort

/-- The name of a file is a plain one, whatever the key is. -/
theorem plain_fileName (key : String) : Plain (fileName key) :=
  plain_of_size (by rw [size_fileName]; decide) (by rw [size_fileName]; decide)

/-- The name of a draft is a plain one, whatever the key is. -/
theorem plain_draftName (key : String) : Plain (draftName key) :=
  plain_of_size (by rw [size_draftName]; decide) (by rw [size_draftName]; decide)

/-- No draft has the name of a file, whatever the keys: the names have different lengths. -/
theorem fileName_ne_draftName (key other : String) : fileName key ≠ draftName other := by
  intro h
  have hsize := congrArg String.utf8ByteSize h
  rw [size_fileName, size_draftName] at hsize
  omega

/-- Two keys have one name exactly if they have one digest. The hex spelling loses nothing. -/
theorem keyName_eq_iff (key other : String) :
    keyName key = keyName other ↔
      Sha256.digest (Bytes.ofText key) = Sha256.digest (Bytes.ofText other) :=
  ⟨Hex.encode_injective, fun h => congrArg Hex.encode h⟩

/-! ### Calls -/

variable {d : Directory} {home : Path} {key : String}

/-- The paths below the directory are short enough for the file system. -/
def Fits (d : Directory) : Prop := pathSize d.place + 74 ≤ maxPath

/-- The text of a file. -/
def textOf (bytes : Bytes) : Except StoreError (Option String) :=
  match Bytes.toText? bytes with
  | some text => .ok (some text)
  | none => .error .notText

/-- What is read is what stands at the path of the key's file. The name of the file is made
from a digest, so it is plain and of one length. -/
theorem get_eq (h : d.files.LeadsTo d.place home) (key : String) :
    d.get key
      = if maxPath < pathSize (d.fileOf key) then .error (.io .nameTooLong)
        else match d.files.entry? (home ++ [fileName key]) with
          | none => .ok none
          | some .directory => .error (.io .isDirectory)
          | some (.file bytes) => textOf bytes := by
  have hread := Files.read_name h (plain_fileName key)
  rw [get, show d.fileOf key = d.place ++ [fileName key] from rfl, hread]
  -- The path may be too long although it leads somewhere.
  by_cases hlong : maxPath < pathSize (d.place ++ [fileName key])
  · simp only [if_pos hlong]
  · simp only [if_neg hlong]
    cases d.files.entry? (home ++ [fileName key]) with
    | none => rfl
    | some entry => cases entry <;> rfl

/-- The tree after a draft was written. -/
def drafted (d : Directory) (home : Path) (key value : String) : Files :=
  d.files.insert (home ++ [draftName key]) (.file (Bytes.ofText value))

/-- The tree after a draft took the place of the file. -/
def replaced (d : Directory) (home : Path) (key value : String) : Files :=
  ((d.drafted home key value).erase (home ++ [draftName key])).insert (home ++ [fileName key])
    (.file (Bytes.ofText value))

/-- A text is written to the draft, which takes the file's place then, unless a directory
stands in the way of one of them. The three failures are in the order in which the calls are
made, and the last one leaves the draft behind. -/
theorem put_eq (h : d.files.LeadsTo d.place home) (key value : String) :
    d.put key value
      = if maxPath < pathSize (d.draftOf key) then (.error (.io .nameTooLong), d)
        else if d.files.entry? (home ++ [draftName key]) = some .directory then
          (.error (.io .isDirectory), d)
        else if d.files.entry? (home ++ [fileName key]) = some .directory then
          (.error (.io .isDirectory), { d with files := d.drafted home key value })
        else
          (.ok (), { d with files := d.replaced home key value }) := by
  have hwrite := Files.write_name h (plain_draftName key) (Bytes.ofText value)
  rw [put, show d.draftOf key = d.place ++ [draftName key] from rfl,
    show d.fileOf key = d.place ++ [fileName key] from rfl, hwrite]
  by_cases hlong : maxPath < pathSize (d.place ++ [draftName key])
  · simp only [if_pos hlong]
  · by_cases hdraft : d.files.entry? (home ++ [draftName key]) = some .directory
    · simp only [if_neg hlong, if_pos hdraft]
    · simp only [if_neg hlong, if_neg hdraft]
      -- The draft stands now, and the rest of the tree is as it was.
      have hroot : home ++ [draftName key] ≠ [] := by simp
      have hleads := h.of_keepsDirectories (KeepsDirectories.insert hroot hdraft
        (.file (Bytes.ofText value)))
      have hshort : pathSize (d.place ++ [fileName key]) ≤ maxPath := by
        rw [Files.pathSize_name, size_draftName] at hlong
        rw [Files.pathSize_name, size_fileName]
        omega
      have hrename := Files.rename_name hleads (plain_draftName key) (plain_fileName key)
        (Nat.not_lt.1 hlong) hshort
        (by rw [Files.entry?_insert hroot, if_pos rfl])
      have hother : home ++ [fileName key] ≠ home ++ [draftName key] := by
        simpa using fileName_ne_draftName key key
      rw [hrename, Files.entry?_insert hroot, if_neg hother]
      by_cases hfile : d.files.entry? (home ++ [fileName key]) = some .directory
      · simp only [if_pos hfile]
        rfl
      · simp only [if_neg hfile]
        rfl

/-- The file of a key is removed, if there is one. That there is none is no fault. The
store's answer does not tell whether there was one. -/
theorem delete_eq (h : d.files.LeadsTo d.place home) (key : String) :
    d.delete key
      = if maxPath < pathSize (d.fileOf key) then (.error (.io .nameTooLong), d)
        else match d.files.entry? (home ++ [fileName key]) with
          | none => (.ok (), d)
          | some .directory => (.error (.io .isDirectory), d)
          | some (.file _) =>
            (.ok (), { d with files := d.files.erase (home ++ [fileName key]) }) := by
  have hremove := Files.remove_name h (plain_fileName key)
  rw [delete, show d.fileOf key = d.place ++ [fileName key] from rfl, hremove]
  -- The path may be too long although it leads somewhere.
  by_cases hlong : maxPath < pathSize (d.place ++ [fileName key])
  · simp only [if_pos hlong]
  · simp only [if_neg hlong]
    cases d.files.entry? (home ++ [fileName key]) with
    | none => rfl
    | some entry => cases entry <;> rfl

/-! ### What a new text changes -/

section Replacing
variable (value : String)

/-- After a text was put, it stands in the key's file, there is no draft, and all else is as
it was. The two names differ, so the order of the two conditions does not matter. -/
theorem entry?_replaced (d : Directory) (home : Path) (key : String) (other : Path) :
    Files.entry? (d.replaced home key value) other
      = if other = home ++ [fileName key] then some (.file (Bytes.ofText value))
        else if other = home ++ [draftName key] then none
        else d.files.entry? other := by
  have hroot : ∀ name : String, home ++ [name] ≠ [] := by simp
  rw [replaced, Files.entry?_insert (hroot _), Files.entry?_erase (hroot _), drafted,
    Files.entry?_insert (hroot _)]
  by_cases hfile : other = home ++ [fileName key]
  · simp [hfile]
  · by_cases hdraft : other = home ++ [draftName key]
    · simp [hdraft]
    · simp [hfile, hdraft]

/-- No directory is lost where none stands at the two paths of the key. -/
theorem keepsDirectories_replaced
    (hfile : d.files.entry? (home ++ [fileName key]) ≠ some .directory)
    (hdraft : d.files.entry? (home ++ [draftName key]) ≠ some .directory) :
    KeepsDirectories d.files (d.replaced home key value) := by
  intro other hother
  have hnotFile : other ≠ home ++ [fileName key] := by
    rintro rfl
    exact hfile hother
  have hnotDraft : other ≠ home ++ [draftName key] := by
    rintro rfl
    exact hdraft hother
  rw [entry?_replaced, if_neg hnotFile, if_neg hnotDraft]
  exact hother

end Replacing

/-! ### Opening -/

/-- The directory was opened under this text and is there. -/
structure OpenedAt (text : String) (d : Directory) : Prop where
  noNul : text.toList.contains '\x00' = false
  size_le : text.utf8ByteSize + 1 ≤ maxPath
  place_eq : d.place = (Files.path text).filter (· ≠ ".")
  there : d.files.isDirectory (Files.path text) = true

variable {files : Files} {text : String}

/-- A directory that was opened is there. Each test that `openAt` makes on the way becomes
one field. -/
theorem openedAt_of_openAt (h : (openAt files text).1 = .ok d) : d.OpenedAt text := by
  rw [openAt] at h
  split at h
  · cases h
  · rename_i hnul
    split at h
    · cases h
    · rename_i hlong
      cases hmake : files.makeDirectories (Files.path text) with
      | mk result made =>
          rw [hmake] at h
          cases result with
          | error e => cases h
          | ok done =>
              obtain rfl := Except.ok.inj h
              exact ⟨by simpa using hnul, Nat.not_lt.1 hlong, rfl,
                Files.isDirectory_of_makeDirectories hmake⟩

/-- To open a directory again gives the same directory and changes no file. The tests that
were passed the first time are passed again, since they are about the path and the
directories. -/
theorem OpenedAt.openAt_eq (h : d.OpenedAt text) : openAt d.files text = (.ok d, d.files) := by
  rw [openAt, if_neg (by rw [h.noNul]; decide), if_neg (Nat.not_lt.2 h.size_le),
    Files.makeDirectories_of_isDirectory h.there]
  show (Except.ok (⟨d.files, (Files.path text).filter (· ≠ ".")⟩ : Directory), d.files) = _
  rw [← h.place_eq]

/-- The place of an open directory leads to it. The dots in the text that it was opened by
lead nowhere else. -/
theorem OpenedAt.exists_leadsTo (h : d.OpenedAt text) : ∃ home, d.files.LeadsTo d.place home := by
  obtain ⟨-, home, hleads⟩ := (Files.isDirectory_iff _ _).1 h.there
  rw [h.place_eq]
  exact ⟨home, Files.walk_filter_dot hleads.walk, hleads.directory⟩

/-- A directory is there as long as none is lost. The other three facts are about the path
and not about the tree. -/
theorem OpenedAt.of_keepsDirectories (h : d.OpenedAt text)
    (hkeeps : KeepsDirectories d.files files) : OpenedAt text { d with files } where
  noNul := h.noNul
  size_le := h.size_le
  place_eq := h.place_eq
  there := by
    obtain ⟨hsize, home, hleads⟩ := (Files.isDirectory_iff _ _).1 h.there
    exact (Files.isDirectory_iff _ _).2 ⟨hsize, home, hleads.of_keepsDirectories hkeeps⟩

end Directory
end Keyring
