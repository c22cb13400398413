import Keyring.Proofs.Key.Reading
import Keyring.Proofs.Session.Requests

/-!
# `Keyring.Proofs.Session.Issued`: the pairs that the library hands out

A pair is made from fresh bytes, read from the text of a private key, restored
from a backup, or unlocked in a pool. Wherever it comes from it is the pair of
its own private key, so it can be read back from its text. The theorems:

* `Pool.yields_unlock`: a pair that is unlocked is the pair of its private key.
* `KeyPair.Issued.eq_ofSecret`: so is every pair that is handed out.
* `KeyPair.ofHex_determines`: which texts are read as pairs, what the pairs are
  made of, and that those that are handed out are read back.
-/

set_option autoImplicit false

namespace Keyring

open Curve (InRange)
open Hex (Spells)

/-- What is unlocked in a pool is the pair of its private key, because it was read from a
text. The text comes from the store and may be anything, and reading it as a key checks it. -/
theorem Pool.yields_unlock {σ : Type} [Store σ] (s : Settings) (address password : String) :
    Yields (fun found : Option KeyPair => ∀ pair ∈ found, pair = KeyPair.ofSecret pair.secret)
      (Pool.unlock s address password : Action σ (Option KeyPair)) := by
  have hnone : ∀ pair ∈ (none : Option KeyPair), pair = KeyPair.ofSecret pair.secret := by
    intro pair h
    cases h
  refine yields_bind _ fun pool => ?_
  split
  · exact yields_pure hnone
  · split
    · exact yields_pure hnone
    · split
      · -- Only here a pair is given, and it was read from the text that was opened.
        rename_i found hread
        refine yields_pure fun pair hpair => ?_
        rw [← Option.some.inj hpair]
        exact KeyPair.eq_ofSecret_of_ofHex hread
      · exact yields_throw _

namespace KeyPair

/-- The pairs that the library hands out, by where they come from. -/
inductive Issued : KeyPair → Prop
  | generated (e : Entropy) : Issued (fresh e).1
  | rebuilt {text : String} {pair : KeyPair} : ofHex text = .ok pair → Issued pair
  /-- What an address and a password unlock in a pool. -/
  | unlocked {σ : Type} [Store σ] {s : Settings} {address password : String}
      {c : Pool.Context σ} {pair : KeyPair} :
      ((Pool.unlock s address password).run c).1 = .ok (some pair) → Issued pair
  /-- What the flows of a session sign with. -/
  | active {σ : Type} [Store σ] {s : Settings} {password : String} {w : Session.World σ}
      {wallet : Wallet} {pair : KeyPair} :
      ((Session.unlockActive s password).run w).1 = .ok (wallet, pair) → Issued pair
  /-- What a flow stores that makes a wallet or restores one from a backup. -/
  | imported {origin : Session.Origin} {s : Settings} {e : Entropy} {pair : KeyPair} :
      origin.pair? s e = some pair → Issued pair

/-- Every pair that is handed out is the pair of its private key, in each of the three ways
in which pairs are handed out. So public key and address of a pair are never out of step with
its private key. -/
theorem Issued.eq_ofSecret {pair : KeyPair} (h : Issued pair) : pair = ofSecret pair.secret := by
  cases h with
  | generated e => rfl
  | rebuilt hread => exact eq_ofSecret_of_ofHex hread
  | unlocked hunlock => exact Pool.yields_unlock _ _ _ _ _ hunlock pair rfl
  | @active _ _ s password w _ _ hunlock =>
      obtain ⟨-, hfound⟩ := Session.unlockActive_spec s password w
      obtain ⟨-, text, -, hread⟩ := hfound _ _ hunlock
      exact eq_ofSecret_of_ofHex hread
  | imported horigin => exact Session.Origin.eq_ofSecret horigin

/-- The text of a private key determines its pair:

* A text is read as a pair if and only if it is 64 hexadecimal digits, of either case, of a number
  in 1 … n − 1. Any other text is refused as invalid key material, for the first reason that
  applies.
* The pair that is read is written as the text in lower case, and is made of the multiple of the
  generator by the number and of that point's address. The other texts that are read as it are
  those that differ from the text in the case of digits alone.
* Every pair that the library hands out is read back from the text of its private key. -/
theorem ofHex_determines (text : String) :
    ((∃ pair, ofHex text = .ok pair) ↔ ∃ number, InRange number ∧ Spells text.toList 64 number) ∧
    (∀ e, ofHex text = .error e →
      Secret.Refused text e ∧ ∃ reason, e.message = "invalid key material: " ++ reason) ∧
    (∀ pair, ofHex text = .ok pair →
      Spells text.toList 64 pair.secret.scalar ∧ pair.secret.hex = Hex.lower text ∧
        WellFormed pair ∧
        ∀ other, ofHex other = .ok pair ↔ Hex.lower other = Hex.lower text) ∧
    ∀ pair, Issued pair → ofHex pair.secret.hex = .ok pair := by
  refine ⟨exists_ofHex_iff text, fun e he => ⟨(ofHex_eq_error_iff text e).1 he, _, rfl⟩, ?_, ?_⟩
  · intro pair hread
    obtain ⟨hspells, hpair⟩ := (ofHex_eq_ok_iff text pair).1 hread
    -- The pair is built from its private key, so it is well formed by construction.
    have hwellFormed : WellFormed pair := by
      rw [hpair]
      exact wellFormed_ofSecret pair.secret
    refine ⟨hspells, ?_, hwellFormed, fun other => ?_⟩
    · calc pair.secret.hex = Hex.lower pair.secret.hex := hwellFormed.secretText.2.symm
        _ = Hex.lower text := hspells.lower_eq_iff.2 pair.secret.spells_hex
    · -- Texts of one number differ in the case of digits alone, and the number determines the
      -- pair.
      rw [ofHex_eq_ok_iff, hspells.lower_eq_iff]
      exact ⟨And.left, fun hother => ⟨hother, hpair⟩⟩
  · intro pair hissued
    have hread := ofHex_hex pair.secret
    rwa [← hissued.eq_ofSecret] at hread

/-- The text of a private key in capital digits. -/
def capitalHex : String := String.ofList (List.replicate 62 '0' ++ ['A', 'F'])

/-- The key 175 is read from capital digits, and is read back in small ones. -/
theorem ofHex_determines_capitals : ∃ pair, ofHex capitalHex = .ok pair ∧
    pair.secret.scalar = 175 ∧ WellFormed pair ∧ ofHex (Hex.lower capitalHex) = .ok pair := by
  obtain ⟨hreads, -, hread, hback⟩ := ofHex_determines capitalHex
  have hsecret := Secret.spells_hex ⟨175, by decide, by decide⟩
  have hspells : Spells capitalHex.toList 64 175 := hsecret.lower_eq_iff.1 (by decide +kernel)
  obtain ⟨pair, hpair⟩ := hreads.2 ⟨175, ⟨by decide, by decide⟩, hspells⟩
  obtain ⟨hnumber, htext, hwellFormed, -⟩ := hread pair hpair
  refine ⟨pair, hpair, hnumber.number.symm.trans hspells.number, hwellFormed, ?_⟩
  rw [← htext]
  exact hback pair (.rebuilt hpair)

end KeyPair
end Keyring
