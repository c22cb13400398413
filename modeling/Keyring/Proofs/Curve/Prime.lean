import Mathlib.NumberTheory.LucasPrimality
import Keyring.Curve.P256
import Keyring.Proofs.Curve.Modular

/-!
# `Keyring.Proofs.Curve.Prime`: the moduli are prime

A number is prime if some root has the order one less than the number modulo
it (Lucas). A certificate names the root and the primes whose product is one
less; certificates in a row, each of which uses primes that come before it,
prove all of their numbers prime. The theorems:

* `Certificate.prime_of_holds`: a certificate that holds proves its prime.
* `prime_p`, `prime_n`: the modulus of the coordinates and the order of the
  group are prime.
-/

set_option autoImplicit false

namespace Keyring.Curve

/-- Evidence that a number is prime: a root of the order one less than the number, and the
primes whose product is one less, each with its multiplicity. -/
structure Certificate where
  number : Nat
  root : Nat
  factors : List (Nat × Nat)

namespace Certificate

/-- A power of the root modulo the number. -/
def rootPower (c : Certificate) (exponent : Nat) : Nat :=
  Modular.powDigits (c.number.log2 + 1) c.number c.root exponent

/-- Does the certificate prove its number prime, if the known numbers are prime? -/
def holds (known : List Nat) (c : Certificate) : Bool :=
  1 < c.number && (c.factors.map fun factor => factor.1 ^ factor.2).prod == c.number - 1 &&
    c.rootPower (c.number - 1) == 1 &&
    c.factors.all fun factor =>
      known.contains factor.1 && c.rootPower ((c.number - 1) / factor.1) != 1

/-- A power of the root is one exactly if it is one in `ZMod`. The certificate is checked by
numbers, and Lucas' criterion speaks of residues. -/
theorem rootPower_eq_one_iff {c : Certificate} (hone : 1 < c.number) {exponent : Nat}
    (h : exponent ≤ c.number) :
    c.rootPower exponent = 1 ↔ (c.root : ZMod c.number) ^ exponent = 1 := by
  have hlt : c.rootPower exponent < c.number := Modular.powDigits_lt hone _ _ _
  rw [← Modular.cast_powDigits c.number c.root (Nat.lt_of_le_of_lt h Nat.lt_log2_self)]
  constructor
  · intro hpower
    show ((c.rootPower exponent : Nat) : ZMod c.number) = 1
    rw [hpower, Nat.cast_one]
  · intro hpower
    have hcast : ((c.rootPower exponent : Nat) : ZMod c.number) = ((1 : Nat) : ZMod c.number) := by
      rw [Nat.cast_one]
      exact hpower
    exact ((ZMod.natCast_eq_natCast_iff _ _ _).1 hcast).eq_of_lt_of_lt hlt hone

/-- A certificate that holds proves its number prime, by Lucas' criterion: the root has the
order one less than the number, so all residues but zero are units. The factors of the number
less one are among the primes that are known, which is what the certificates before it are
for. -/
theorem prime_of_holds {known : List Nat} (hknown : ∀ q ∈ known, q.Prime) {c : Certificate}
    (h : c.holds known = true) : c.number.Prime := by
  simp only [holds, Bool.and_eq_true, decide_eq_true_eq, beq_iff_eq, List.all_eq_true,
    List.contains_iff_mem, bne_iff_ne] at h
  obtain ⟨⟨⟨hone, hprod⟩, hroot⟩, hfactors⟩ := h
  -- Lucas: the root has the order one less than the number, so all residues are units.
  refine lucas_primality c.number (c.root : ZMod c.number) ?_ ?_
  · exact (rootPower_eq_one_iff hone (Nat.sub_le _ _)).1 hroot
  · intro q hq hdvd hpower
    -- A prime that divides the product is one of the factors.
    rw [← hprod] at hdvd
    obtain ⟨r, hr, hqr⟩ := (Nat.Prime.prime hq).dvd_prod_iff.1 hdvd
    obtain ⟨factor, hfactor, rfl⟩ := List.mem_map.1 hr
    obtain ⟨hfactorKnown, hfactorPower⟩ := hfactors factor hfactor
    have hqfactor := (Nat.prime_dvd_prime_iff_eq hq (hknown _ hfactorKnown)).1
      (hq.dvd_of_dvd_pow hqr)
    rw [hqfactor] at hpower
    have hexponent : (c.number - 1) / factor.1 ≤ c.number :=
      Nat.le_trans (Nat.div_le_self _ _) (Nat.sub_le _ _)
    exact hfactorPower ((rootPower_eq_one_iff hone hexponent).2 hpower)

/-- Do all certificates hold, each with the numbers of those before it known? -/
def chainHolds : (known : List Nat) → List Certificate → Bool
  | _, [] => true
  | known, c :: rest => c.holds known && chainHolds (c.number :: known) rest

/-- Certificates that hold in a row prove all their numbers prime. Induction on the row: each
may use the primes that were proved before it. -/
theorem prime_of_chainHolds {certificates : List Certificate} :
    ∀ {known : List Nat}, (∀ q ∈ known, q.Prime) → chainHolds known certificates = true →
      ∀ c ∈ certificates, c.number.Prime := by
  induction certificates with
  | nil =>
      intro known _ _ c hc
      exact absurd hc List.not_mem_nil
  | cons first rest ih =>
      intro known hknown h
      simp only [chainHolds, Bool.and_eq_true] at h
      -- The number of the first certificate is known to all after it.
      have hfirst := prime_of_holds hknown h.1
      have hmore : ∀ q ∈ first.number :: known, q.Prime := by
        intro q hq
        rcases List.mem_cons.1 hq with rfl | hq
        · exact hfirst
        · exact hknown q hq
      intro c hc
      rcases List.mem_cons.1 hc with rfl | hc
      · exact hfirst
      · exact ih hmore h.2 c hc

end Certificate

/-- Certificates for the two moduli and for all primes that these need. -/
def certificates : List Certificate :=
  [⟨3, 2, [(2, 1)]⟩, ⟨5, 2, [(2, 2)]⟩, ⟨7, 3, [(2, 1), (3, 1)]⟩, ⟨11, 2, [(2, 1), (5, 1)]⟩,
    ⟨13, 2, [(2, 2), (3, 1)]⟩, ⟨17, 3, [(2, 4)]⟩, ⟨19, 2, [(2, 1), (3, 2)]⟩,
    ⟨23, 5, [(2, 1), (11, 1)]⟩, ⟨29, 2, [(2, 2), (7, 1)]⟩, ⟨31, 3, [(2, 1), (3, 1), (5, 1)]⟩,
    ⟨37, 2, [(2, 2), (3, 2)]⟩, ⟨41, 6, [(2, 3), (5, 1)]⟩, ⟨43, 3, [(2, 1), (3, 1), (7, 1)]⟩,
    ⟨53, 2, [(2, 2), (13, 1)]⟩, ⟨71, 7, [(2, 1), (5, 1), (7, 1)]⟩, ⟨97, 5, [(2, 5), (3, 1)]⟩,
    ⟨107, 2, [(2, 1), (53, 1)]⟩, ⟨127, 3, [(2, 1), (3, 2), (7, 1)]⟩,
    ⟨131, 2, [(2, 1), (5, 1), (13, 1)]⟩, ⟨151, 6, [(2, 1), (3, 1), (5, 2)]⟩,
    ⟨157, 5, [(2, 2), (3, 1), (13, 1)]⟩, ⟨173, 2, [(2, 2), (43, 1)]⟩,
    ⟨181, 2, [(2, 2), (3, 2), (5, 1)]⟩, ⟨197, 2, [(2, 2), (7, 2)]⟩,
    ⟨229, 6, [(2, 2), (3, 1), (19, 1)]⟩, ⟨241, 7, [(2, 4), (3, 1), (5, 1)]⟩, ⟨257, 3, [(2, 8)]⟩,
    ⟨263, 5, [(2, 1), (131, 1)]⟩, ⟨311, 17, [(2, 1), (5, 1), (31, 1)]⟩,
    ⟨313, 10, [(2, 3), (3, 1), (13, 1)]⟩, ⟨337, 10, [(2, 4), (3, 1), (7, 1)]⟩,
    ⟨373, 2, [(2, 2), (3, 1), (31, 1)]⟩, ⟨641, 3, [(2, 7), (5, 1)]⟩,
    ⟨661, 2, [(2, 2), (3, 1), (5, 1), (11, 1)]⟩, ⟨727, 5, [(2, 1), (3, 1), (11, 2)]⟩,
    ⟨757, 2, [(2, 2), (3, 3), (7, 1)]⟩, ⟨919, 7, [(2, 1), (3, 3), (17, 1)]⟩,
    ⟨1087, 3, [(2, 1), (3, 1), (181, 1)]⟩, ⟨1201, 11, [(2, 4), (3, 1), (5, 2)]⟩,
    ⟨1297, 10, [(2, 4), (3, 4)]⟩, ⟨1511, 11, [(2, 1), (5, 1), (151, 1)]⟩,
    ⟨1531, 2, [(2, 1), (3, 2), (5, 1), (17, 1)]⟩, ⟨2411, 6, [(2, 1), (5, 1), (241, 1)]⟩,
    ⟨3023, 5, [(2, 1), (1511, 1)]⟩, ⟨3407, 5, [(2, 1), (13, 1), (131, 1)]⟩,
    ⟨3677, 2, [(2, 2), (919, 1)]⟩, ⟨3769, 7, [(2, 3), (3, 1), (157, 1)]⟩,
    ⟨4349, 2, [(2, 2), (1087, 1)]⟩, ⟨9547, 2, [(2, 1), (3, 1), (37, 1), (43, 1)]⟩,
    ⟨16879, 3, [(2, 1), (3, 1), (29, 1), (97, 1)]⟩, ⟨17449, 14, [(2, 3), (3, 1), (727, 1)]⟩,
    ⟨18169, 11, [(2, 3), (3, 1), (757, 1)]⟩, ⟨38189, 2, [(2, 2), (9547, 1)]⟩,
    ⟨65537, 3, [(2, 16)]⟩, ⟨78283, 3, [(2, 1), (3, 2), (4349, 1)]⟩,
    ⟨104471, 11, [(2, 1), (5, 1), (31, 1), (337, 1)]⟩,
    ⟨126241, 7, [(2, 5), (3, 1), (5, 1), (263, 1)]⟩,
    ⟨155317, 5, [(2, 2), (3, 1), (7, 1), (43, 2)]⟩,
    ⟨490463, 14, [(2, 1), (7, 1), (53, 1), (661, 1)]⟩,
    ⟨704251, 2, [(2, 1), (3, 2), (5, 3), (313, 1)]⟩, ⟨3969899, 2, [(2, 1), (19, 1), (104471, 1)]⟩,
    ⟨6700417, 5, [(2, 7), (3, 1), (17449, 1)]⟩,
    ⟨9350987, 2, [(2, 1), (17, 1), (229, 1), (1201, 1)]⟩,
    ⟨187019741, 2, [(2, 2), (5, 1), (9350987, 1)]⟩,
    ⟨191039911, 3, [(2, 1), (3, 1), (5, 1), (41, 1), (155317, 1)]⟩,
    ⟨204061199, 11, [(2, 1), (11, 1), (23, 1), (107, 1), (3769, 1)]⟩,
    ⟨311245691, 2, [(2, 1), (5, 1), (7, 1), (17, 1), (29, 2), (311, 1)]⟩,
    ⟨622491383, 5, [(2, 1), (311245691, 1)]⟩,
    ⟨34282281433, 17, [(2, 3), (3, 1), (7, 1), (204061199, 1)]⟩,
    ⟨66417393611, 6, [(2, 1), (5, 1), (53, 1), (173, 1), (197, 1), (3677, 1)]⟩,
    ⟨1002328039319, 19, [(2, 1), (126241, 1), (3969899, 1)]⟩,
    ⟨11290956913871, 13, [(2, 1), (5, 1), (17, 1), (66417393611, 1)]⟩,
    ⟨46076956964474543, 5, [(2, 1), (23, 1), (18169, 1), (78283, 1), (704251, 1)]⟩,
    ⟨208150935158385979, 2,
      [(2, 1), (3, 1), (11, 1), (43, 1), (127, 1), (3023, 1), (191039911, 1)]⟩,
    ⟨2624747550333869278416773953, 7,
      [(2, 6), (3, 2), (1297, 1), (16879, 1), (208150935158385979, 1)]⟩,
    ⟨774023187263532362759620327192479577272145303, 3,
      [(2, 1), (3, 2), (2411, 1), (34282281433, 1), (11290956913871, 1), (46076956964474543, 1)]⟩,
    ⟨835945042244614951780389953367877943453916927241, 11,
      [(2, 3), (3, 3), (5, 1), (774023187263532362759620327192479577272145303, 1)]⟩,
    ⟨P256.n, 7,
      [(2, 4), (3, 1), (71, 1), (131, 1), (373, 1), (3407, 1), (17449, 1), (38189, 1),
        (187019741, 1), (622491383, 1), (1002328039319, 1), (2624747550333869278416773953, 1)]⟩,
    ⟨P256.p, 6,
      [(2, 1), (3, 1), (5, 2), (17, 1), (257, 1), (641, 1), (1531, 1), (65537, 1), (490463, 1),
        (6700417, 1), (835945042244614951780389953367877943453916927241, 1)]⟩]

/-- All certificates hold, by computation. Each names the one before it, so the kernel raises
one number to some powers for each prime of the chain. -/
theorem chainHolds_certificates : Certificate.chainHolds [2] certificates = true := by
  decide +kernel

/-- All numbers that have a certificate are prime. The row begins with two, which needs none. -/
theorem prime_of_mem_certificates {number : Nat}
    (h : number ∈ certificates.map Certificate.number) : number.Prime := by
  have htwo : ∀ q ∈ [2], q.Prime := by
    intro q hq
    rw [List.mem_singleton.1 hq]
    exact Nat.prime_two
  obtain ⟨c, hc, rfl⟩ := List.mem_map.1 h
  exact Certificate.prime_of_chainHolds htwo chainHolds_certificates c hc

/-- The modulus of the coordinates is prime, so they form a field. The certificates end with
this number. All arithmetic on coordinates is in that field, and none of it is computed with
fractions. -/
theorem prime_p : P256.p.Prime := prime_of_mem_certificates (by decide +kernel)

/-- The order of the group is prime, so each number in range has an inverse modulo it. The
inverse of a secret number is taken there, and a product of residues is zero only if a factor
is. -/
theorem prime_n : P256.n.Prime := prime_of_mem_certificates (by decide +kernel)

end Keyring.Curve
