import Keyring.Proofs.Store.Directory
import Keyring.Store.Memory

/-!
# `Keyring.Proofs.Store.Mirror`: a directory answers as a map does

A caller makes calls to a directory and opens it again whenever it likes. The
answers are those that a map in memory gives to the same calls. The theorems:

* `Mirrors.call`: one call is answered alike, and afterwards the keys hold the
  same texts again.
* `Mirrors.answers_eq`: so all calls of a run are answered alike, also after the
  directory was opened again.
* `answers_eq_memory`: this, from a directory that was opened with nothing in it.

What is known between two calls is `Mirrors`. It speaks of the files and of
nothing else, so no state is lost when a directory is opened again.
-/

set_option autoImplicit false

namespace Keyring

/-! ### Calls and answers -/

namespace Store

/-- A call to a store. -/
inductive Call where
  | get (key : String)
  | put (key value : String)
  | delete (key : String)
  deriving DecidableEq, Repr

/-- What a store answers: a text, or that the call was done. -/
inductive Answer where
  | text (result : Except StoreError (Option String))
  | done (result : Except StoreError Unit)

/-- The key of a call. -/
def Call.key : Call → String
  | get key | put key _ | delete key => key

/-- The answer to a call, and the store after it. -/
def Call.run {σ : Type} [Store σ] : Call → σ → Answer × σ
  | get key, store => let r := Store.get key store; (.text r.1, r.2)
  | put key value, store => let r := Store.put key value store; (.done r.1, r.2)
  | delete key, store => let r := Store.delete key store; (.done r.1, r.2)

/-- The answers to calls in turn. -/
def answers {σ : Type} [Store σ] : List Call → σ → List Answer
  | [], _ => []
  | call :: rest, store => (call.run store).1 :: answers rest (call.run store).2

/-- The file system refused the call. -/
def Answer.Refused : Answer → Prop
  | text result => ∃ e, result = .error (.io e)
  | done result => ∃ e, result = .error (.io e)

end Store

namespace Directory

open Files (LeadsTo KeepsDirectories pathSize maxPath)
open Store (Call Answer)

/-- What a caller does with a directory: a call, or opening it again. -/
inductive Step where
  | call (c : Call)
  | reopen
  deriving DecidableEq, Repr

/-- The call of a step. -/
def Step.call? : Step → Option Call
  | call c => some c
  | reopen => none

/-- The answers to the calls of the steps in turn. The directory is opened again under the same
text; where that fails, the error is the last answer. -/
def answers (text : String) : List Step → Directory → List Answer
  | [], _ => []
  | .call c :: rest, d => (c.run d).1 :: answers text rest (c.run d).2
  | .reopen :: rest, d =>
    match openAt d.files text with
    | (.ok d, _) => answers text rest d
    | (.error e, _) => [.done (.error e)]

/-! ### One call -/

/-- No two of the keys have the same digest. -/
def Apart (keys : List String) : Prop :=
  ∀ key ∈ keys, ∀ other ∈ keys,
    Sha256.digest (Bytes.ofText key) = Sha256.digest (Bytes.ofText other) → key = other

/-- A directory that was opened under a text holds under each of the keys what a map holds, and no
draft is left. -/
structure Mirrors (text : String) (home : Path) (keys : List String) (d : Directory)
    (m : Memory) : Prop where
  opened : d.OpenedAt text
  leads : d.files.LeadsTo d.place home
  file : ∀ key ∈ keys, d.files.entry? (home ++ [fileName key])
    = (m.lookup key).map fun value => .file (Bytes.ofText value)
  draft : ∀ key ∈ keys, d.files.entry? (home ++ [draftName key]) = none

variable {text : String} {home : Path} {keys : List String} {d : Directory} {m : Memory}
  {key : String}

/-- Among keys of different digests those with one file are the same. The name of a file is
made from the digest alone. -/
theorem Apart.fileName_inj (hapart : Apart keys) {other : String} (hkey : key ∈ keys)
    (hother : other ∈ keys) (h : fileName key = fileName other) : key = other := by
  have hname : keyName key = keyName other := by simpa [fileName] using h
  exact hapart key hkey other hother ((keyName_eq_iff key other).1 hname)

/-- In a directory with room for the names of keys no file has a path that is too long. -/
theorem fits_fileOf (h : d.Fits) (key : String) : pathSize (d.fileOf key) ≤ maxPath := by
  rw [show d.fileOf key = d.place ++ [fileName key] from rfl, Files.pathSize_name, size_fileName]
  unfold Fits at h
  omega

/-- In a directory with room for the names of keys no draft has a path that is too long. -/
theorem fits_draftOf (h : d.Fits) (key : String) : pathSize (d.draftOf key) ≤ maxPath := by
  rw [show d.draftOf key = d.place ++ [draftName key] from rfl, Files.pathSize_name,
    size_draftName]
  unfold Fits at h
  omega

/-- No directory stands at the file of a key, since a text or nothing does. -/
theorem Mirrors.file_ne_directory (h : Mirrors text home keys d m) (hkey : key ∈ keys) :
    d.files.entry? (home ++ [fileName key]) ≠ some .directory := by
  rw [h.file key hkey]
  cases m.lookup key <;> simp

/-- No directory stands at the draft of a key, since nothing does. Each writing moves its
draft away again. -/
theorem Mirrors.draft_ne_directory (h : Mirrors text home keys d m) (hkey : key ∈ keys) :
    d.files.entry? (home ++ [draftName key]) ≠ some .directory := by
  simp [h.draft key hkey]

/-- The text of a key is read as the map has it. The file of the key has the text that the
map has, and there is no file where the map has none. -/
theorem Mirrors.get (h : Mirrors text home keys d m) (hkey : key ∈ keys)
    (hshort : pathSize (d.fileOf key) ≤ maxPath) : d.get key = .ok (m.lookup key) := by
  rw [get_eq h.leads, if_neg (Nat.not_lt.2 hshort), h.file key hkey]
  cases m.lookup key with
  | none => rfl
  | some value => simp [textOf]

/-- A text is put as the map takes it, and the directory mirrors the map afterwards. The
files of other keys do not change, because they have other names. -/
theorem Mirrors.put (h : Mirrors text home keys d m) (hapart : Apart keys) (hkey : key ∈ keys)
    (value : String) (hshort : pathSize (d.draftOf key) ≤ maxPath) :
    (d.put key value).1 = .ok () ∧
      Mirrors text home keys (d.put key value).2 (m.insert key value) := by
  have hkeeps := keepsDirectories_replaced value (h.file_ne_directory hkey)
    (h.draft_ne_directory hkey)
  rw [put_eq h.leads, if_neg (Nat.not_lt.2 hshort), if_neg (h.draft_ne_directory hkey),
    if_neg (h.file_ne_directory hkey)]
  refine ⟨rfl, h.opened.of_keepsDirectories hkeeps, h.leads.of_keepsDirectories hkeeps, ?_, ?_⟩
  · intro other hother
    -- The file has the new text, and the file of another key has its own.
    show Files.entry? (d.replaced home key value) _ = _
    rw [entry?_replaced, Memory.lookup_insert]
    by_cases hsame : other = key
    · simp [hsame]
    · have hfile : fileName other ≠ fileName key := mt (hapart.fileName_inj hother hkey) hsame
      simp [hsame, hfile, fileName_ne_draftName, h.file other hother]
  · intro other hother
    show Files.entry? (d.replaced home key value) _ = _
    -- A draft is no file of a key, so none is there afterwards.
    have hfile : home ++ [draftName other] ≠ home ++ [fileName key] := by
      simpa using (fileName_ne_draftName key other).symm
    rw [entry?_replaced, if_neg hfile]
    split
    · rfl
    · exact h.draft other hother

/-- A key is deleted as the map forgets it, and the directory mirrors the map afterwards. -/
theorem Mirrors.delete (h : Mirrors text home keys d m) (hapart : Apart keys) (hkey : key ∈ keys)
    (hshort : pathSize (d.fileOf key) ≤ maxPath) :
    (d.delete key).1 = .ok () ∧ Mirrors text home keys (d.delete key).2 (m.erase key) := by
  have hroot : home ++ [fileName key] ≠ [] := by simp
  have hkeeps := KeepsDirectories.erase hroot (h.file_ne_directory hkey)
  rw [delete_eq h.leads, if_neg (Nat.not_lt.2 hshort), h.file key hkey]
  cases hheld : m.lookup key with
  | none =>
      refine ⟨rfl, h.opened, h.leads, ?_, h.draft⟩
      intro other hother
      rw [Memory.lookup_erase]
      by_cases hsame : other = key
      · simp [hsame, h.file key hkey, hheld]
      · simp [hsame, h.file other hother]
  | some value =>
      refine ⟨rfl, h.opened.of_keepsDirectories hkeeps, h.leads.of_keepsDirectories hkeeps, ?_, ?_⟩
      · intro other hother
        show Files.entry? (d.files.erase (home ++ [fileName key])) _ = _
        rw [Files.entry?_erase hroot, Memory.lookup_erase]
        by_cases hsame : other = key
        · simp [hsame]
        · have hfile : fileName other ≠ fileName key := mt (hapart.fileName_inj hother hkey) hsame
          simp [hsame, hfile, h.file other hother]
      · intro other hother
        show Files.entry? (d.files.erase (home ++ [fileName key])) _ = _
        have hfile : draftName other ≠ fileName key := (fileName_ne_draftName key other).symm
        simp [Files.entry?_erase hroot, hfile, h.draft other hother]

/-- A call that the file system does not refuse is answered as the map answers it, and keeps
the directory in its place. A run is then answered as the map answers it by induction on its
calls. -/
theorem Mirrors.call (h : Mirrors text home keys d m) (hapart : Apart keys) (c : Call)
    (hkey : c.key ∈ keys) (hcalls : d.Fits ∨ ¬(c.run d).1.Refused) :
    (c.run d).1 = (c.run m).1 ∧ Mirrors text home keys (c.run d).2 (c.run m).2 := by
  cases c with
  | get key =>
      have hshort : pathSize (d.fileOf key) ≤ maxPath := by
        rcases hcalls with hfits | hanswered
        · exact fits_fileOf hfits key
        · by_contra hlong
          apply hanswered
          show ∃ e, d.get key = .error (.io e)
          rw [get_eq h.leads, if_pos (Nat.not_le.1 hlong)]
          exact ⟨_, rfl⟩
      have hget : d.get key = .ok (m.lookup key) := h.get hkey hshort
      exact ⟨congrArg Answer.text hget, h⟩
  | put key value =>
      have hshort : pathSize (d.draftOf key) ≤ maxPath := by
        rcases hcalls with hfits | hanswered
        · exact fits_draftOf hfits key
        · by_contra hlong
          apply hanswered
          show ∃ e, (d.put key value).1 = .error (.io e)
          rw [put_eq h.leads, if_pos (Nat.not_le.1 hlong)]
          exact ⟨_, rfl⟩
      obtain ⟨hdone, hmirrors⟩ := h.put hapart hkey value hshort
      exact ⟨congrArg Answer.done hdone, hmirrors⟩
  | delete key =>
      have hshort : pathSize (d.fileOf key) ≤ maxPath := by
        rcases hcalls with hfits | hanswered
        · exact fits_fileOf hfits key
        · by_contra hlong
          apply hanswered
          show ∃ e, (d.delete key).1 = .error (.io e)
          rw [delete_eq h.leads, if_pos (Nat.not_le.1 hlong)]
          exact ⟨_, rfl⟩
      obtain ⟨hdone, hmirrors⟩ := h.delete hapart hkey hshort
      exact ⟨congrArg Answer.done hdone, hmirrors⟩

/-! ### Runs -/

/-- Calls to a directory are answered as the map answers them, also after it was opened again.
Induction on the steps; what carries it is that the directory mirrors the map before each. -/
theorem Mirrors.answers_eq (hapart : Apart keys) (steps : List Step)
    (hkeys : ∀ c ∈ steps.filterMap Step.call?, c.key ∈ keys) (h : Mirrors text home keys d m)
    (hcalls : d.Fits ∨ ∀ a ∈ d.answers text steps, ¬a.Refused) :
    d.answers text steps = Store.answers (steps.filterMap Step.call?) m := by
  induction steps generalizing d m with
  | nil => rfl
  | cons step rest ih =>
      cases step with
      | reopen =>
          have hsame : d.answers text (.reopen :: rest) = d.answers text rest := by
            rw [Directory.answers, h.opened.openAt_eq]
          rw [hsame] at hcalls ⊢
          exact ih hkeys h hcalls
      | call c =>
          have hfirst : d.Fits ∨ ¬(c.run d).1.Refused :=
            hcalls.imp_right fun hanswered => hanswered _ List.mem_cons_self
          obtain ⟨hanswer, hmirrors⟩ := h.call hapart c (hkeys c List.mem_cons_self) hfirst
          have hplace : (c.run d).2.place = d.place := hmirrors.opened.place_eq.trans
            h.opened.place_eq.symm
          have hrest : (c.run d).2.Fits ∨ ∀ a ∈ (c.run d).2.answers text rest, ¬a.Refused := by
            rcases hcalls with hfits | hanswered
            · left
              unfold Fits at hfits ⊢
              rw [hplace]
              exact hfits
            · right
              intro a ha
              exact hanswered a (List.mem_cons_of_mem _ ha)
          show (c.run d).1 :: (c.run d).2.answers text rest
            = (c.run m).1 :: Store.answers (rest.filterMap Step.call?) (c.run m).2
          rw [hanswer, ih (fun c' hc' => hkeys c' (List.mem_cons_of_mem _ hc')) hmirrors hrest]

/-- Nothing stands in the directory. -/
def Vacant (d : Directory) : Prop :=
  ∀ home name, d.files.LeadsTo d.place home → d.files.entry? (home ++ [name]) = none

/-- A directory that was opened with nothing in it answers every call as a map in memory does that
is given the same calls and is never opened again. The file system must accept the paths below the
directory, or at least refuse no call of the run. No two keys of the run may have the same
digest. -/
theorem answers_eq_memory {files : Files} {text : String} {d : Directory}
    (hopen : (openAt files text).1 = .ok d) (hvacant : d.Vacant) (steps : List Step)
    (hapart : Apart ((steps.filterMap Step.call?).map Call.key))
    (hcalls : d.Fits ∨ ∀ a ∈ d.answers text steps, ¬a.Refused) :
    d.answers text steps = Store.answers (steps.filterMap Step.call?) Memory.empty := by
  have hopened := openedAt_of_openAt hopen
  obtain ⟨home, hleads⟩ := hopened.exists_leadsTo
  have hnone : ∀ name, d.files.entry? (home ++ [name]) = none :=
    fun name => hvacant home name hleads
  have hmirrors : Mirrors text home ((steps.filterMap Step.call?).map Call.key) d Memory.empty :=
    ⟨hopened, hleads, fun key _ => hnone _, fun key _ => hnone _⟩
  exact hmirrors.answers_eq hapart steps (fun c hc => List.mem_map_of_mem hc) hcalls

/-- A directory that was just made. -/
def fresh : Directory := ⟨⟨[(["store"], .directory)]⟩, ["store"]⟩

/-- A run over keys with slashes, dots and colons in them, and over the empty key. -/
def freshSteps : List Step :=
  [.call (.put "../a:::b" ""), .call (.put "" "text"), .reopen, .call (.get "../a:::b"),
    .call (.delete "../a:::b"), .reopen, .call (.get "../a:::b"), .call (.get "")]

/-- The directory of the example is vacant. It was just made, so no entry is in it. -/
theorem vacant_fresh : fresh.Vacant := by
  intro home name h
  obtain rfl : ["store"] = home := Except.ok.inj h.walk
  simp [fresh, Files.entry?]

/-- The run is answered as the map answers it: no call is refused, and what was put is read. -/
theorem answers_eq_memory_fresh :
    (openAt Files.empty "store").1 = .ok fresh ∧
      fresh.answers "store" freshSteps
        = [.done (.ok ()), .done (.ok ()), .text (.ok (some "")), .done (.ok ()), .text (.ok none),
            .text (.ok (some "text"))] := by
  have hopen : (openAt Files.empty "store").1 = .ok fresh := by decide +kernel
  have hapart : Apart ((freshSteps.filterMap Step.call?).map Call.key) := by
    unfold Apart
    decide +kernel
  have hfits : fresh.Fits := by
    unfold Fits
    decide
  refine ⟨hopen, ?_⟩
  rw [answers_eq_memory hopen vacant_fresh freshSteps hapart (.inl hfits)]
  rfl

end Directory
end Keyring
