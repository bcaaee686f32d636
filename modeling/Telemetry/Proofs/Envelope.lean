import Telemetry.Envelope
import Telemetry.Proofs.Gzip.Limit
import Telemetry.Proofs.Gzip.Pack
import Telemetry.Proofs.Rsa.Cipher

namespace Telemetry.Envelope

/-- The ends of a connection: they share a key or have none, and the receiver has the private half
of the sender's pair of keys or they have no such pair. -/
structure Paired (sealing : Sealing) (opening : Opening) : Prop where
  key : opening.key = sealing.key
  publicKey : sealing.publicKey = opening.privateKey.map (·.publicKey)
  genuine : ∀ key, opening.privateKey = some key → key.IsGenuine

/-- What one end makes the other can undo: it decrypts what is encrypted, and asks for the tag of no
key but the one that is shared. -/
structure Matched (sealing : Sealing) (opening : Opening) : Prop where
  key : ∀ key, opening.key = some key → sealing.key = some key
  publicKey : sealing.publicKey = opening.privateKey.map (·.publicKey)
  undone : ∀ key, opening.privateKey = some key → key.Undoes

/-- The form in which plain bytes are sealed: as they are, or with compression whatever unpacks to
them. -/
def Sealing.Packs (sealing : Sealing) (plain packed : Bytes) : Prop :=
  if sealing.compress then Gzip.unpack packed = .ok plain else packed = plain

/-- The plain bytes do not exceed the limit, and a receiver can ask for one byte more than it. -/
def Opening.HasRoom (opening : Opening) (plain : Bytes) : Prop :=
  ∀ limit, opening.limit = some limit → plain.length ≤ limit ∧ limit < 0xffffffffffffffff

variable {sealing : Sealing} {opening : Opening} {filler plain packed : Bytes} {envelope : Envelope}

theorem Paired.matched (paired : Paired sealing opening) : Matched sealing opening where
  key := fun _ asked => paired.key.symm.trans asked
  publicKey := paired.publicKey
  undone := fun key pair => (paired.genuine key pair).undoes

theorem seal_eq_sealPacked (sealing : Sealing) (filler plain : Bytes) :
    sealing.seal filler plain = sealing.sealPacked filler plain (sealing.pack plain) := rfl

theorem packs_pack (sealing : Sealing) (plain : Bytes) :
    sealing.Packs plain (sealing.pack plain) := by
  rw [Sealing.Packs, Sealing.pack]
  cases sealing.compress with
  | true => exact Gzip.unpack_pack plain
  | false => rfl

theorem ne_nil_of_packs (packs : sealing.Packs plain packed) (nonempty : plain ≠ []) :
    packed ≠ [] := by
  rw [Sealing.Packs] at packs
  split at packs
  · exact Gzip.ne_nil_of_unpack packs
  · rwa [packs]

/-- What sealing makes of the plain bytes; the body is what was packed, or its encryption. -/
theorem sealPacked_eq_ok (sealed : sealing.sealPacked filler plain packed = .ok envelope) :
    envelope.signature = sealing.sign plain ∧ envelope.gzip = sealing.compress ∧
      match sealing.publicKey with
      | none => envelope.body = packed
      | some key => key.encrypt filler packed = some envelope.body := by
  rw [Sealing.sealPacked] at sealed
  cases pair : sealing.publicKey with
  | none =>
    rw [pair] at sealed
    obtain rfl := Except.ok.inj sealed
    exact ⟨rfl, rfl, rfl⟩
  | some key =>
    simp only [pair] at sealed
    cases encrypted : key.encrypt filler packed with
    | none =>
      rw [encrypted] at sealed
      cases sealed
    | some body =>
      rw [encrypted] at sealed
      obtain rfl := Except.ok.inj sealed
      exact ⟨rfl, rfl, encrypted⟩

theorem decipher_sealPacked (matched : Matched sealing opening) (nonempty : packed ≠ [])
    (sealed : sealing.sealPacked filler plain packed = .ok envelope) :
    opening.decipher envelope.body = .ok packed := by
  obtain ⟨-, -, body⟩ := sealPacked_eq_ok sealed
  rw [matched.publicKey] at body
  rw [Opening.decipher]
  cases pair : opening.privateKey with
  | none =>
    rw [pair] at body
    rw [show envelope.body = packed from body]
  | some key =>
    rw [pair] at body
    have decrypted := matched.undone key pair nonempty body
    have some := Rsa.PublicKey.ne_nil_of_encrypt nonempty body
    simp only [List.isEmpty_eq_false_iff.2 some, decrypted, Bool.false_eq_true, if_false]

theorem inflate_packed (packs : sealing.Packs plain packed) (room : opening.HasRoom plain) :
    opening.inflate sealing.compress packed = .ok plain := by
  rw [Sealing.Packs] at packs
  rw [Opening.inflate]
  cases compressed : sealing.compress with
  | false =>
    rw [compressed] at packs
    exact congrArg Except.ok packs
  | true =>
    rw [compressed, if_pos rfl] at packs
    simp only [List.isEmpty_eq_false_iff.2 (Gzip.ne_nil_of_unpack packs), Bool.not_false,
      Bool.and_self, if_true]
    cases limited : opening.limit with
    | none => simp only [packs, mapError_ok]
    | some limit =>
      obtain ⟨within, counts⟩ := room limit limited
      simp only [Gzip.unpackWithin_of_unpack packs within counts, mapError_ok]

theorem authenticate_sign (shared : ∀ key, opening.key = some key → sealing.key = some key)
    (plain : Bytes) :
    opening.authenticate (sealing.sign plain) plain = .ok plain := by
  rw [Opening.authenticate, Sealing.sign]
  cases asked : opening.key with
  | none => rfl
  | some key => simp only [shared key asked, Option.map_some, Mac.verify_sign, if_true]

/-- What one end seals, the other end opens. -/
theorem unseal_of_sealPacked (matched : Matched sealing opening) (nonempty : plain ≠ [])
    (packs : sealing.Packs plain packed) (room : opening.HasRoom plain)
    (sealed : sealing.sealPacked filler plain packed = .ok envelope) :
    opening.unseal envelope.body envelope.gzip envelope.signature = .ok plain := by
  obtain ⟨signature, gzip, -⟩ := sealPacked_eq_ok sealed
  rw [Opening.unseal, decipher_sealPacked matched (ne_nil_of_packs packs nonempty) sealed,
    signature, gzip, ok_bind, inflate_packed packs room, ok_bind, authenticate_sign matched.key]

/-- What becomes of plain bytes that are sealed: packed they are too long for the key, without which
there is no such length, or the other end opens them if it has room for them. -/
inductive Passes (sealing : Sealing) (opening : Opening) (plain packed : Bytes) :
    Except Fault Envelope → Prop
  | tooLong {key : Rsa.PublicKey} (encrypts : sealing.publicKey = some key)
      (long : key.size - 11 < packed.length) :
      Passes sealing opening plain packed (.error (.tooLong packed.length (key.size - 11)))
  | opened {envelope : Envelope}
      (fits : ∀ key, sealing.publicKey = some key → packed.length ≤ key.size - 11)
      (opens : opening.HasRoom plain →
        opening.unseal envelope.body envelope.gzip envelope.signature = .ok plain) :
      Passes sealing opening plain packed (.ok envelope)

theorem Passes.opens_of_fits {sealed : Except Fault Envelope}
    (passes : Passes sealing opening plain packed sealed)
    (fits : ∀ key, sealing.publicKey = some key → packed.length ≤ key.size - 11)
    (room : opening.HasRoom plain) :
    ∃ envelope, sealed = .ok envelope ∧
      opening.unseal envelope.body envelope.gzip envelope.signature = .ok plain := by
  cases passes with
  | tooLong encrypts long => exact absurd (fits _ encrypts) (Nat.not_le.2 long)
  | @opened envelope _ opens => exact ⟨envelope, rfl, opens room⟩

theorem exists_sealPacked
    (fits : ∀ key, sealing.publicKey = some key → packed.length ≤ key.capacity)
    (filler plain : Bytes) : ∃ envelope, sealing.sealPacked filler plain packed = .ok envelope := by
  rw [Sealing.sealPacked]
  cases encrypts : sealing.publicKey with
  | none => exact ⟨_, rfl⟩
  | some key =>
    obtain ⟨cipher, encrypted, -⟩ := Rsa.PublicKey.encrypt_of_fits (fits key encrypts) filler
    simp only [encrypted]
    exact ⟨_, rfl⟩

theorem passes_sealPacked (matched : Matched sealing opening) (nonempty : plain ≠ [])
    (packs : sealing.Packs plain packed) (filler : Bytes) :
    Passes sealing opening plain packed (sealing.sealPacked filler plain packed) := by
  by_cases long : ∃ key, sealing.publicKey = some key ∧ key.capacity < packed.length
  · obtain ⟨key, encrypts, long⟩ := long
    have refused :
        sealing.sealPacked filler plain packed = .error (.tooLong packed.length key.capacity) := by
      simp only [Sealing.sealPacked, encrypts, Rsa.PublicKey.encrypt, if_pos long]
    rw [refused]
    exact .tooLong encrypts long
  · have fits : ∀ key, sealing.publicKey = some key → packed.length ≤ key.capacity := by
      intro key encrypts
      exact Nat.not_lt.1 fun exceeds => long ⟨key, encrypts, exceeds⟩
    obtain ⟨envelope, sealed⟩ := exists_sealPacked fits filler plain
    rw [sealed]
    exact .opened fits fun room => unseal_of_sealPacked matched nonempty packs room sealed

end Telemetry.Envelope
