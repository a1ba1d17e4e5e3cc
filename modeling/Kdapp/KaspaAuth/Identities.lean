import Kdapp.KaspaAuth.Daemon
import Kdapp.Library.Outcome
import Kdapp.Library.Transition

/-! The identities of the authentication daemon (`daemon/service.rs`, `utils/keychain.rs`): a
password hash and a secret key in the keychain of the system or in files, and the wallets that are
unlocked. The crates for hashes, keys and storage are parameters. -/

namespace Kdapp.KaspaAuth
open FiniteMap InOrder Transition
open Std (ExtTreeMap)
open CommentBoard (hex)

/-- `argon2`, and what `hex` and `secp256k1` make of a stored key. -/
class KeyCrates where
  hashPassword : Borsh.Bytes → String → Except String String
  verifyPassword : String → String → Except String Bool
  hexError : String → String
  secretFromSlice : Borsh.Bytes → Except String Hash

/-- How a write ends. What is found after one that failed is up to the storage. -/
inductive Written where
  | done
  | failed (error : String) (left : Option String)

/-- What a read says where nothing is stored, and the error if it fails otherwise. -/
structure Reading where
  missing : String
  failure : Option String

/-- One kind of entry, by the name of the user. Names that lead to one file are the same name. -/
abbrev Entries := ExtTreeMap String String

namespace Entries

def write (m : Entries) (username text : String) : Written → Entries
  | .done => m.insert username text
  | .failed _ (some left) => m.insert username left
  | .failed _ none => m.erase username

def read (m : Entries) (username : String) (reading : Reading) : Except String String :=
  match m[username]? with
  | none => .error reading.missing
  | some text =>
    match reading.failure with
    | some e => .error e
    | none => .ok text

end Entries

structure KaspaAuthWallet where
  secretKey : Hash
  wasCreated : Bool
deriving DecidableEq

/-- The entries of the service, and those of the service with `-pwd` at the end of its name. -/
structure KeychainManager where
  keys : Entries
  passwords : Entries

namespace KeychainManager
variable (self : KeychainManager) (username : String)

/-- `drawn` is the secret key that is generated. -/
def createWallet (drawn : Hash) (written : Written) :
    Except String KaspaAuthWallet × KeychainManager :=
  let after := { self with keys := Entries.write self.keys username (hex drawn.1) written }
  match written with
  | .done => (.ok ⟨drawn, true⟩, after)
  | .failed e _ => (.error e, after)

def loadWallet [KeyCrates] (reading : Reading) : Except String KaspaAuthWallet := do
  let privateKeyHex ← Entries.read self.keys username reading
  match hexDecode privateKeyHex.toList with
  | none => .error (KeyCrates.hexError privateKeyHex)
  | some privateKeyBytes => do
    let secretKey ← KeyCrates.secretFromSlice privateKeyBytes
    .ok ⟨secretKey, false⟩

def storePasswordHash (hash : String) (written : Written) : Except String Unit × KeychainManager :=
  let after := { self with passwords := Entries.write self.passwords username hash written }
  match written with
  | .done => (.ok (), after)
  | .failed e _ => (.error e, after)

def verifyPassword [KeyCrates] (password : String) (reading : Reading) : Except String Bool := do
  let stored ← Entries.read self.passwords username reading
  KeyCrates.verifyPassword stored password

end KeychainManager

structure Creating where
  salt : Borsh.Bytes
  drawn : Hash
  hashWritten : Written
  keyWritten : Written

structure AuthDaemon where
  keychain : KeychainManager
  unlockedIdentities : ExtTreeMap String KaspaAuthWallet

namespace AuthDaemon
variable [KeyCrates] (self : AuthDaemon) (username password : String)

def createIdentity (io : Creating) : DaemonResponse × AuthDaemon :=
  match KeyCrates.hashPassword io.salt password with
  | .error e => (.error ("Failed to hash password: " ++ e), self)
  | .ok passwordHash =>
    match self.keychain.storePasswordHash username passwordHash io.hashWritten with
    | (.error e, keychain) =>
      (.error ("Failed to store password hash: " ++ e), { self with keychain })
    | (.ok (), keychain) =>
      match keychain.createWallet username io.drawn io.keyWritten with
      | (.ok wallet, keychain) =>
        (.success ("Identity '" ++ username ++ "' created and saved successfully"),
          ⟨keychain, self.unlockedIdentities.insert username wallet⟩)
      | (.error e, keychain) =>
        (.error ("Failed to create identity: " ++ e), { self with keychain })

def unlockIdentity (hashReading keyReading : Reading) : DaemonResponse × AuthDaemon :=
  if password.utf8ByteSize < 4 then (.error "Password too short", self)
  else
    match self.keychain.verifyPassword username password hashReading with
    | .ok false => (.error "Invalid password", self)
    | .error e => (.error ("Password verification failed: " ++ e), self)
    | .ok true =>
      match self.keychain.loadWallet username keyReading with
      | .ok wallet =>
        (.success ("Identity '" ++ username ++ "' unlocked successfully"),
          { self with unlockedIdentities := self.unlockedIdentities.insert username wallet })
      | .error e => (.error ("Failed to unlock identity: " ++ e), self)

omit [KeyCrates] in
def lockAllIdentities : DaemonResponse × AuthDaemon :=
  (.success ("Locked " ++ self.unlockedIdentities.size.repr ++ " identities"),
    { self with unlockedIdentities := ∅ })

end AuthDaemon

/-- A request that concerns the identities, and what the system does then. -/
inductive IdentityRequest where
  | createIdentity (username password : String) (io : Creating)
  | unlock (password username : String) (hashReading keyReading : Reading)
  | lock

namespace AuthDaemon

/-- `process_request`, for these requests. -/
def process [KeyCrates] (self : AuthDaemon) : IdentityRequest → DaemonResponse × AuthDaemon
  | .createIdentity username password io => self.createIdentity username password io
  | .unlock password username hashReading keyReading =>
    self.unlockIdentity username password hashReading keyReading
  | .lock => self.lockAllIdentities

def step [KeyCrates] (self : AuthDaemon) (request : IdentityRequest) : AuthDaemon :=
  (self.process request).2

end AuthDaemon

section Storage
variable {m : Entries} {username text : String} {e : String} {left : Option String}

theorem Entries.insert_eq_iff : m.insert username text = m ↔ m[username]? = some text := by
  constructor
  · intro h
    rw [← h]
    exact ExtTreeMap.getElem?_insert_self
  · exact insert_of_getElem?

theorem Entries.getElem?_write_failed :
    (Entries.write m username text (.failed e left))[username]? = left := by
  cases left with
  | none => exact ExtTreeMap.getElem?_erase_self
  | some left => exact ExtTreeMap.getElem?_insert_self

theorem Entries.write_failed_eq_iff :
    Entries.write m username text (.failed e left) = m ↔ left = m[username]? := by
  constructor
  · intro h
    rw [← h]
    exact Entries.getElem?_write_failed.symm
  · intro h
    cases left with
    | none => exact erase_of_none h.symm
    | some left => exact insert_of_getElem? h.symm

theorem Entries.getElem?_write_of_ne (written : Written) {other : String} (h : username ≠ other) :
    (Entries.write m username text written)[other]? = m[other]? := by
  cases written with
  | done => exact getElem?_insert_of_ne h _
  | failed e left =>
    cases left with
    | none => exact getElem?_erase_of_ne h
    | some left => exact getElem?_insert_of_ne h _

end Storage

namespace AuthDaemon
variable [KeyCrates] {s : AuthDaemon} {request : IdentityRequest}

/-- What is asked of a request: a key that is stored is not replaced where an identity is created,
and nothing changes where that is answered with an error. -/
structure Safe (s : AuthDaemon) (request : IdentityRequest) : Prop where
  kept : ∀ username password io, request = .createIdentity username password io →
    ∀ key, s.keychain.keys[username]? = some key →
      (s.step request).keychain.keys[username]? = some key
  atomic : ∀ username password io, request = .createIdentity username password io →
    ∀ e, (s.process request).1 = .error e → s.step request = s

/-- The name is new and everything is written; or what fails leaves what was stored, and nothing was
written ahead of it but what was there. -/
def Preserves (s : AuthDaemon) : IdentityRequest → Prop
  | .createIdentity username password io =>
    match KeyCrates.hashPassword io.salt password with
    | .error _ => True
    | .ok passwordHash =>
      match io.hashWritten, io.keyWritten with
      | .failed _ left, _ => left = s.keychain.passwords[username]?
      | .done, .failed _ left =>
        s.keychain.passwords[username]? = some passwordHash ∧ left = s.keychain.keys[username]?
      | .done, .done => ∀ key, s.keychain.keys[username]? = some key → key = hex io.drawn.1
  | .unlock _ _ _ _ | .lock => True

inductive Created (s : AuthDaemon) (username password : String) (io : Creating) :
    DaemonResponse × AuthDaemon → Prop
  | unhashed {e : String} (h : KeyCrates.hashPassword io.salt password = .error e) :
    Created s username password io (.error ("Failed to hash password: " ++ e), s)
  | hashLost {hash e : String} {left : Option String}
    (h : KeyCrates.hashPassword io.salt password = .ok hash)
    (hwritten : io.hashWritten = .failed e left) :
    Created s username password io (.error ("Failed to store password hash: " ++ e),
      { s with keychain.passwords :=
          Entries.write s.keychain.passwords username hash (.failed e left) })
  | keyLost {hash e : String} {left : Option String}
    (h : KeyCrates.hashPassword io.salt password = .ok hash)
    (hwritten : io.hashWritten = .done) (hkey : io.keyWritten = .failed e left) :
    Created s username password io (.error ("Failed to create identity: " ++ e),
      { s with keychain := {
        keys := Entries.write s.keychain.keys username (hex io.drawn.1) (.failed e left)
        passwords := s.keychain.passwords.insert username hash } })
  | saved {hash : String} (h : KeyCrates.hashPassword io.salt password = .ok hash)
    (hwritten : io.hashWritten = .done) (hkey : io.keyWritten = .done) :
    Created s username password io
      (.success ("Identity '" ++ username ++ "' created and saved successfully"), {
        keychain := {
          keys := s.keychain.keys.insert username (hex io.drawn.1)
          passwords := s.keychain.passwords.insert username hash }
        unlockedIdentities := s.unlockedIdentities.insert username ⟨io.drawn, true⟩ })

theorem created (s : AuthDaemon) (username password : String) (io : Creating) :
    Created s username password io (s.createIdentity username password io) := by
  unfold createIdentity
  cases hhash : KeyCrates.hashPassword io.salt password with
  | error e => exact .unhashed hhash
  | ok hash =>
    dsimp only [KeychainManager.storePasswordHash]
    cases hwritten : io.hashWritten with
    | failed e left => exact .hashLost hhash hwritten
    | done =>
      dsimp only [KeychainManager.createWallet]
      cases hkey : io.keyWritten with
      | failed e left => exact .keyLost hhash hwritten hkey
      | done => exact .saved hhash hwritten hkey

theorem safe_create_iff {username password : String} {io : Creating} :
    s.Safe (.createIdentity username password io) ↔
      (∀ key, s.keychain.keys[username]? = some key →
        (s.createIdentity username password io).2.keychain.keys[username]? = some key) ∧
      ∀ e, (s.createIdentity username password io).1 = .error e →
        (s.createIdentity username password io).2 = s := by
  constructor
  · rintro ⟨hkept, hatomic⟩
    exact ⟨hkept _ _ _ rfl, hatomic _ _ _ rfl⟩
  · rintro ⟨hkept, hatomic⟩
    constructor
    · rintro _ _ _ ⟨⟩
      exact hkept
    · rintro _ _ _ ⟨⟩
      exact hatomic

theorem unlock_keychain (s : AuthDaemon) (username password : String)
    (hashReading keyReading : Reading) :
    (s.unlockIdentity username password hashReading keyReading).2.keychain = s.keychain := by
  unfold unlockIdentity
  split
  · rfl
  split
  · rfl
  · rfl
  split
  · rfl
  · rfl

theorem safe_iff_preserves (s : AuthDaemon) (request : IdentityRequest) :
    s.Safe request ↔ s.Preserves request := by
  cases request with
  | lock => exact iff_of_true ⟨nofun, nofun⟩ trivial
  | unlock password username hashReading keyReading => exact iff_of_true ⟨nofun, nofun⟩ trivial
  | createIdentity username password io =>
    have hcreated := created s username password io
    rw [safe_create_iff]
    unfold Preserves
    generalize s.createIdentity username password io = out at hcreated ⊢
    cases hcreated with
    | unhashed h =>
      simp only [h]
      exact iff_of_true ⟨fun _ hkey => hkey, fun _ _ => trivial⟩ trivial
    -- `create_identity` writes the hash first, then the key: each write may fail by itself
    | @hashLost hash e left h hwritten =>
      simp only [h, hwritten]
      constructor
      · rintro ⟨-, hatomic⟩
        have hsame := congrArg (fun s : AuthDaemon => s.keychain.passwords) (hatomic _ rfl)
        exact Entries.write_failed_eq_iff.mp hsame
      · intro hleft
        have hsame : Entries.write s.keychain.passwords username hash (.failed e left) =
            s.keychain.passwords := Entries.write_failed_eq_iff.mpr hleft
        refine ⟨fun _ hkey => hkey, fun _ _ => ?_⟩
        rw [hsame]
    | @keyLost hash e left h hwritten hkey =>
      simp only [h, hwritten, hkey]
      constructor
      · rintro ⟨-, hatomic⟩
        have hpasswords := congrArg (fun s : AuthDaemon => s.keychain.passwords) (hatomic _ rfl)
        have hkeys := congrArg (fun s : AuthDaemon => s.keychain.keys) (hatomic _ rfl)
        exact ⟨Entries.insert_eq_iff.mp hpasswords, Entries.write_failed_eq_iff.mp hkeys⟩
      · rintro ⟨hpassword, hleft⟩
        have hpasswords : s.keychain.passwords.insert username hash = s.keychain.passwords :=
          Entries.insert_eq_iff.mpr hpassword
        have hkeys : Entries.write s.keychain.keys username (hex io.drawn.1) (.failed e left) =
            s.keychain.keys := Entries.write_failed_eq_iff.mpr hleft
        rw [hpasswords, hkeys]
        exact ⟨fun _ hkey => hkey, fun _ _ => rfl⟩
    | saved h hwritten hkey =>
      simp only [h, hwritten, hkey]
      constructor
      · rintro ⟨hkept, -⟩ key hstored
        have hnew := hkept key hstored
        rw [ExtTreeMap.getElem?_insert_self] at hnew
        exact (Option.some.inj hnew).symm
      · intro hsame
        refine ⟨fun key hstored => ?_, fun e herror => by cases herror⟩
        rw [ExtTreeMap.getElem?_insert_self, hsame key hstored]

theorem Preserves.key_kept (h : s.Preserves request) {username key : String}
    (hkey : s.keychain.keys[username]? = some key) :
    (s.step request).keychain.keys[username]? = some key := by
  cases request with
  | lock => exact hkey
  | unlock password other hashReading keyReading =>
    unfold step process
    dsimp only
    rw [unlock_keychain]
    exact hkey
  | createIdentity other password io =>
    by_cases hother : other = username
    · subst hother
      exact ((safe_iff_preserves s _).mpr h).kept _ _ _ rfl key hkey
    · have hcreated := created s other password io
      unfold step process
      dsimp only
      generalize s.createIdentity other password io = out at hcreated ⊢
      cases hcreated with
      | unhashed | hashLost => exact hkey
      | keyLost =>
        dsimp only
        rw [Entries.getElem?_write_of_ne _ hother]
        exact hkey
      | saved =>
        dsimp only
        rw [getElem?_insert_of_ne hother]
        exact hkey

end AuthDaemon

/-- For every sequence of requests, whatever the storage does and whatever is stored at first: all
are safe if and only if each of them preserves what is there, and then no key that is stored is ever
lost. -/
theorem identities_safe_iff [KeyCrates] (daemon : AuthDaemon) (requests : List IdentityRequest) :
    (Throughout (fun earlier request => (after AuthDaemon.step daemon earlier).Safe request)
        requests ↔
      Throughout (fun earlier request => (after AuthDaemon.step daemon earlier).Preserves request)
        requests) ∧
    (Throughout (fun earlier request => (after AuthDaemon.step daemon earlier).Preserves request)
        requests →
      ∀ username key : String, daemon.keychain.keys[username]? = some key →
        (after AuthDaemon.step daemon requests).keychain.keys[username]? = some key) := by
  refine ⟨Throughout.congr fun earlier request _ => AuthDaemon.safe_iff_preserves _ request,
    fun hpreserves username key hkey => ?_⟩
  exact after_of_throughout (Q := fun s : AuthDaemon => s.keychain.keys[username]? = some key) hkey
    (fun s request hstored hstep => hstep.key_kept hstored) hpreserves

end Kdapp.KaspaAuth

namespace Kdapp.KaspaAuth
open InOrder Transition
open CommentBoard (hex)

@[reducible] def plainKeys : KeyCrates where
  hashPassword _ password := .ok password
  verifyPassword stored password := .ok (stored == password)
  hexError text := text
  secretFromSlice bytes := if h : bytes.length = 32 then .ok ⟨bytes, h⟩ else .error ""

attribute [local instance] plainKeys

def creating (drawn : UInt8) : IdentityRequest :=
  .createIdentity "alice" "password" ⟨[], Hash.filled drawn, .done, .done⟩

def emptyDaemon : AuthDaemon := ⟨⟨∅, ∅⟩, ∅⟩

/-- The second identity of a name takes the place of the first. -/
theorem identity_replaced :
    ¬ ∀ (daemon : AuthDaemon) (requests : List IdentityRequest),
      Throughout (fun earlier request => (after AuthDaemon.step daemon earlier).Safe request)
        requests := by
  intro h
  have hsafe := h emptyDaemon [creating 1, creating 2] 1 (creating 2) rfl
  have hstored : (after AuthDaemon.step emptyDaemon [creating 1]).keychain.keys["alice"]? =
      some (hex (Hash.filled 1).1) := by decide +kernel
  have hkept : hex (Hash.filled 1).1 = hex (Hash.filled 2).1 :=
    (AuthDaemon.safe_iff_preserves _ _).mp hsafe _ hstored
  exact absurd hkept (by decide +kernel)

end Kdapp.KaspaAuth
