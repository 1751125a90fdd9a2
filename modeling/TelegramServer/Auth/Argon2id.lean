import TelegramServer.Go.Base64
import TelegramServer.Go.Scan

/-!
The text form of a hashed API key (`internal/auth/argon2.go`). `encodeArgon2id` writes
one; `VerifyAPIKey` takes one apart, checks the parameters against the constants and
derives a key of the length it has found.

What is read back need not have been written. The parameters may be followed by any
text, the salt and the key may have any length, and the same bytes have several
encodings. What `VerifyAPIKey` accepts is therefore pinned only for a text whose parts
are the ones that would be written (`formatPinned_iff`).
-/

namespace TelegramServer.Auth

open Go

/-- `argon2.IDKey`: any function whose result has the length that is asked for. -/
structure IDKey where
  key : (password salt : Bytes) → (time memory : UInt32) → (threads : UInt8) →
    (keyLen : UInt32) → Bytes
  length_key : ∀ password salt time memory threads keyLen,
    (key password salt time memory threads keyLen).length = keyLen.toNat

def argon2Memory : UInt32 := 64 * 1024

def argon2Iterations : UInt32 := 3

def argon2Parallelism : UInt8 := 1

def argon2KeyLen : UInt32 := 32

def argon2SaltLen : UInt32 := 16

inductive HashErr
  | invalidHashFormat | unsupportedParams
  deriving DecidableEq

/-- `%d`. -/
def decimal (n : ℕ) : Bytes := utf8 (formatInt n)

/-- The text of `encodeArgon2id`, for a salt and a key. -/
def hashText (salt key : Bytes) : Bytes :=
  utf8 "$argon2id$v=19$m=" ++ decimal argon2Memory.toNat ++ utf8 ",t=" ++
    decimal argon2Iterations.toNat ++ utf8 ",p=" ++ decimal argon2Parallelism.toNat ++
    utf8 "$" ++ base64Encode salt ++ utf8 "$" ++ base64Encode key

def encodeArgon2id (argon2 : IDKey) (cleartext salt : Bytes) : Bytes :=
  hashText salt
    (argon2.key cleartext salt argon2Iterations argon2Memory argon2Parallelism argon2KeyLen)

/-- The format `m=%d,t=%d,p=%d` of `VerifyAPIKey`, for its three variables. -/
def paramsFormat : List ScanItem :=
  [.literal 'm', .literal '=', .uint 32, .literal ',', .literal 't', .literal '=', .uint 32,
    .literal ',', .literal 'p', .literal '=', .uint 8]

/-- `VerifyAPIKey` up to the derivation of the key: the salt and the key that is stored. -/
def decodeHash (encoded : Bytes) : Except HashErr (Bytes × Bytes) :=
  match encoded.splitOn 36 with
  | [part₀, part₁, part₂, part₃, part₄, part₅] =>
      if part₀ ≠ [] ∨ part₁ ≠ utf8 "argon2id" then .error .invalidHashFormat
      else if part₂ ≠ utf8 "v=19" then .error .invalidHashFormat
      else
        match sscanf part₃ paramsFormat with
        | some [mem, iter, par] =>
            if mem ≠ argon2Memory.toNat ∨ iter ≠ argon2Iterations.toNat ∨
                par ≠ argon2Parallelism.toNat then
              .error .unsupportedParams
            else
              match base64Decode part₄ with
              | none => .error .invalidHashFormat
              | some salt =>
                  match base64Decode part₅ with
                  | none => .error .invalidHashFormat
                  | some want => .ok (salt, want)
        | _ => .error .invalidHashFormat
  | _ => .error .invalidHashFormat

def verifyAPIKey (argon2 : IDKey) (cleartext encoded : Bytes) : Except HashErr Bool :=
  match decodeHash encoded with
  | .error err => .error err
  | .ok (salt, want) =>
      -- the parameters that were read are the pinned ones
      let got := argon2.key cleartext salt argon2Iterations argon2Memory argon2Parallelism
        (UInt32.ofNat want.length)
      .ok (got = want)

/-! ### What is asked of the format -/

/-- The text is accepted only for a cleartext it was made from, whatever `IDKey` is. -/
structure FormatPinned (encoded : Bytes) : Prop where
  /-- What is written is accepted. -/
  roundTrip : ∀ (argon2 : IDKey) (cleartext salt : Bytes), salt.length = argon2SaltLen.toNat →
    verifyAPIKey argon2 cleartext (encodeArgon2id argon2 cleartext salt) = .ok true
  accepted : ∀ (argon2 : IDKey) (cleartext : Bytes),
    verifyAPIKey argon2 cleartext encoded = .ok true →
    ∃ salt, salt.length = argon2SaltLen.toNat ∧ encoded = encodeArgon2id argon2 cleartext salt

/-- The text is one that `encodeArgon2id` might write. -/
def Canonical (encoded : Bytes) : Prop :=
  ∃ salt key : Bytes, salt.length = argon2SaltLen.toNat ∧ key.length = argon2KeyLen.toNat ∧
    encoded = hashText salt key

/-- The text has the six parts of a hash with the pinned parameters, in any spelling that is
read, and the length of its key is not cut off. -/
def Readable (encoded : Bytes) : Prop :=
  ∃ params salt₆₄ key₆₄ salt key : Bytes,
    encoded.splitOn 36 = [[], utf8 "argon2id", utf8 "v=19", params, salt₆₄, key₆₄] ∧
      sscanf params paramsFormat =
        some [argon2Memory.toNat, argon2Iterations.toNat, argon2Parallelism.toNat] ∧
      base64Decode salt₆₄ = some salt ∧ base64Decode key₆₄ = some key ∧ key.length < 2 ^ 32

/-! ### The parts of a text -/

theorem hashText_eq (salt key : Bytes) :
    hashText salt key = [36].intercalate
      [[], utf8 "argon2id", utf8 "v=19", utf8 "m=65536,t=3,p=1", base64Encode salt,
        base64Encode key] := by
  have hconst : utf8 "$argon2id$v=19$m=" ++ decimal argon2Memory.toNat ++ utf8 ",t=" ++
      decimal argon2Iterations.toNat ++ utf8 ",p=" ++ decimal argon2Parallelism.toNat =
      [36] ++ utf8 "argon2id" ++ [36] ++ utf8 "v=19" ++ [36] ++ utf8 "m=65536,t=3,p=1" := by
    decide
  have hdollar : utf8 "$" = [36] := by decide
  rw [hashText, hconst, hdollar]
  simp [List.intercalate]

theorem dollar_notMem_base64Encode (src : Bytes) : (36 : UInt8) ∉ base64Encode src := by
  intro h
  have hnot : (36 : UInt8) ∉ base64Alphabet := by decide
  exact hnot (mem_alphabet_of_mem_base64Encode h)

theorem splitOn_hashText (salt key : Bytes) :
    (hashText salt key).splitOn 36 =
      [[], utf8 "argon2id", utf8 "v=19", utf8 "m=65536,t=3,p=1", base64Encode salt,
        base64Encode key] := by
  rw [hashText_eq]
  refine List.splitOn_intercalate 36 ?_ (List.cons_ne_nil _ _)
  intro part hpart
  simp only [List.mem_cons, List.not_mem_nil, or_false] at hpart
  obtain rfl | rfl | rfl | rfl | rfl | rfl := hpart
  · decide
  · decide
  · decide
  · decide
  · exact dollar_notMem_base64Encode salt
  · exact dollar_notMem_base64Encode key

/-- What `VerifyAPIKey` reads. -/
theorem decodeHash_eq_ok {encoded salt key : Bytes} :
    decodeHash encoded = .ok (salt, key) ↔
      ∃ params salt₆₄ key₆₄ : Bytes,
        encoded.splitOn 36 = [[], utf8 "argon2id", utf8 "v=19", params, salt₆₄, key₆₄] ∧
          sscanf params paramsFormat =
            some [argon2Memory.toNat, argon2Iterations.toNat, argon2Parallelism.toNat] ∧
          base64Decode salt₆₄ = some salt ∧ base64Decode key₆₄ = some key := by
  constructor
  · intro h
    unfold decodeHash at h
    split at h
    · next part₀ part₁ part₂ params salt₆₄ key₆₄ hsplit =>
        split_ifs at h with hname hversion
        obtain ⟨rfl, rfl⟩ : part₀ = [] ∧ part₁ = utf8 "argon2id" := by tauto
        obtain rfl : part₂ = utf8 "v=19" := not_not.mp hversion
        split at h
        · next mem iter par hscan =>
            split_ifs at h with hparams
            obtain ⟨rfl, rfl, rfl⟩ : mem = argon2Memory.toNat ∧ iter = argon2Iterations.toNat ∧
                par = argon2Parallelism.toNat := by
              tauto
            split at h
            · cases h
            · next hsalt =>
                split at h
                · cases h
                · next hkey =>
                    obtain ⟨rfl, rfl⟩ := Prod.mk.inj (Except.ok.inj h)
                    exact ⟨params, salt₆₄, key₆₄, hsplit, hscan, hsalt, hkey⟩
        · cases h
    · cases h
  · rintro ⟨params, salt₆₄, key₆₄, hsplit, hscan, hsalt, hkey⟩
    rw [decodeHash, hsplit]
    simp only [hscan, hsalt, hkey, ne_eq, not_true_eq_false, or_self, if_false]

theorem sscanf_params : sscanf (utf8 "m=65536,t=3,p=1") paramsFormat =
    some [argon2Memory.toNat, argon2Iterations.toNat, argon2Parallelism.toNat] := by
  decide +kernel

/-- What is written is read back. -/
theorem decodeHash_hashText (salt key : Bytes) :
    decodeHash (hashText salt key) = .ok (salt, key) :=
  decodeHash_eq_ok.mpr ⟨_, _, _, splitOn_hashText salt key, sscanf_params,
    base64Decode_base64Encode salt, base64Decode_base64Encode key⟩

-- and so is other text: spaces, zeros, more parameters
example : sscanf (utf8 "m= 065536,t=3,p=1,x=2") paramsFormat = some [65536, 3, 1] := by
  decide +kernel

theorem verifyAPIKey_eq_true_iff {argon2 : IDKey} {cleartext encoded : Bytes} :
    verifyAPIKey argon2 cleartext encoded = .ok true ↔
      ∃ salt want, decodeHash encoded = .ok (salt, want) ∧
        argon2.key cleartext salt argon2Iterations argon2Memory argon2Parallelism
          (UInt32.ofNat want.length) = want := by
  rw [verifyAPIKey]
  constructor
  · intro h
    split at h
    · cases h
    · next salt want hdecode =>
        exact ⟨salt, want, hdecode, of_decide_eq_true (Except.ok.inj h)⟩
  · rintro ⟨salt, want, hdecode, hkey⟩
    rw [hdecode]
    exact congrArg Except.ok (decide_eq_true hkey)

theorem verifyAPIKey_encodeArgon2id (argon2 : IDKey) (cleartext salt : Bytes) :
    verifyAPIKey argon2 cleartext (encodeArgon2id argon2 cleartext salt) = .ok true := by
  refine verifyAPIKey_eq_true_iff.mpr ⟨salt, _, decodeHash_hashText _ _, ?_⟩
  rw [argon2.length_key, UInt32.ofNat_toNat]

/-- The derivation that answers with `key` where its length is asked for. -/
def constKey (key : Bytes) : IDKey where
  key _ _ _ _ _ keyLen :=
    if keyLen.toNat = key.length then key else List.replicate keyLen.toNat 0
  length_key := by
    intro _ _ _ _ _ keyLen
    split
    · next h => exact h.symm
    · exact List.length_replicate

/-- A text that is read is accepted for some derivation. -/
theorem verifyAPIKey_constKey {encoded salt want : Bytes} (cleartext : Bytes)
    (h : decodeHash encoded = .ok (salt, want)) (hlen : want.length < 2 ^ 32) :
    verifyAPIKey (constKey want) cleartext encoded = .ok true := by
  refine verifyAPIKey_eq_true_iff.mpr ⟨salt, want, h, if_pos ?_⟩
  rw [UInt32.toNat_ofNat']
  exact Nat.mod_eq_of_lt hlen

/-- **The format is pinned for the texts that are written and those that are not read**, and for
no others. -/
theorem formatPinned_iff (encoded : Bytes) :
    FormatPinned encoded ↔ (Readable encoded → Canonical encoded) := by
  constructor
  · rintro h ⟨params, salt₆₄, key₆₄, salt, want, hsplit, hscan, hsalt, hkey, hlen⟩
    have hdecode : decodeHash encoded = .ok (salt, want) :=
      decodeHash_eq_ok.mpr ⟨params, salt₆₄, key₆₄, hsplit, hscan, hsalt, hkey⟩
    obtain ⟨salt', hsalt', heq⟩ := h.accepted (constKey want) []
      (verifyAPIKey_constKey [] hdecode hlen)
    exact ⟨salt', _, hsalt', (constKey want).length_key .., heq⟩
  · intro h
    refine ⟨fun argon2 cleartext salt _ => verifyAPIKey_encodeArgon2id argon2 cleartext salt, ?_⟩
    intro argon2 cleartext haccepted
    obtain ⟨salt, want, hdecode, hkey⟩ := verifyAPIKey_eq_true_iff.mp haccepted
    have hlen : want.length < 2 ^ 32 := by
      rw [← hkey, argon2.length_key]
      exact UInt32.toNat_lt _
    obtain ⟨params, salt₆₄, key₆₄, hsplit, hscan, hsalt₆₄, hkey₆₄⟩ := decodeHash_eq_ok.mp hdecode
    obtain ⟨salt', key', hsalt', hkey', rfl⟩ :=
      h ⟨params, salt₆₄, key₆₄, salt, want, hsplit, hscan, hsalt₆₄, hkey₆₄, hlen⟩
    rw [decodeHash_hashText] at hdecode
    obtain ⟨rfl, rfl⟩ := Prod.mk.inj (Except.ok.inj hdecode)
    refine ⟨salt', hsalt', ?_⟩
    rw [encodeArgon2id, ← UInt32.ofNat_toNat (x := argon2KeyLen), ← hkey', hkey]

/-- A salt of zeros and a key of one byte. -/
def shortKeyText : Bytes := utf8 "$argon2id$v=19$m=65536,t=3,p=1$AAAAAAAAAAAAAAAAAAAAAA$AA"

/-- One cleartext in 256 is accepted. -/
theorem shortKeyText_not_pinned : ¬FormatPinned shortKeyText := by
  have hdecode : decodeHash shortKeyText = .ok (List.replicate 16 0, [0]) := by decide +kernel
  intro h
  obtain ⟨salt, -, heq⟩ := h.accepted (constKey [0]) (utf8 "x")
    (verifyAPIKey_constKey _ hdecode (by decide))
  rw [heq, encodeArgon2id, decodeHash_hashText] at hdecode
  have hkey := congrArg List.length (Prod.mk.inj (Except.ok.inj hdecode)).2
  rw [(constKey [0]).length_key] at hkey
  exact absurd hkey (by decide)

end TelegramServer.Auth
