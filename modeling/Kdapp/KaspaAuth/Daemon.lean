import Kdapp.Auth
import Kdapp.Library.Reads
import Mathlib.Data.List.Forall2

/-! The messages between a participant and the authentication daemon (`daemon/protocol.rs`), and
the loop of the daemon over a connection (`daemon/service.rs`). `serde_json` is a parameter. -/

namespace Kdapp.KaspaAuth
open Borsh

structure SessionInfo where
  episodeId : Hash
  username : String
  peerUrl : String
  sessionToken : String
  createdAtSeconds : UInt64

inductive DaemonRequest where
  | ping
  | unlock (password username : String)
  | lock
  | status
  | signChallenge (challenge username : String)
  | createIdentity (username password : String)
  | listIdentities
  | listSessions
  | authenticate (peerUrl username : String)
  | revokeSession (episodeId : UInt64) (sessionToken username : String)
  | shutdown
deriving DecidableEq

inductive DaemonResponse where
  | success (message : String)
  | error (error : String)
  | pong (version : String) (uptimeSeconds identitiesLoaded : UInt64)
  | status (isUnlocked : Bool) (loadedIdentities : List String) (activeSessions : UInt64)
  | signature (signature publicKey : String)
  | authResult (success : Bool) (episodeId : Option UInt64) (sessionToken : Option String)
    (message : String)
  | identities (usernames : List String)
  | sessions (sessions : List SessionInfo)

structure IpcMessage (T : Type) where
  id : UInt64
  payload : T
deriving DecidableEq

/-- `serde_json`, for messages of one kind. -/
class SerdeJson (T : Type) where
  toString : IpcMessage T → Option String
  fromStr : String → Option (IpcMessage T)

/-- What is written is read again. It is never empty, and control characters are escaped. -/
structure SerdeJson.Lawful (T : Type) [SerdeJson T] : Prop where
  roundTrip : ∀ (msg : IpcMessage T) json, SerdeJson.toString msg = some json →
    SerdeJson.fromStr json = some msg
  nonempty : ∀ (msg : IpcMessage T) json, SerdeJson.toString msg = some json → json ≠ ""
  escaped : ∀ (msg : IpcMessage T) json, SerdeJson.toString msg = some json →
    Char.ofNat 0 ∉ json.toList

section
variable {T : Type} [SerdeJson T]

/-- The length (cast to `u32`) and the text. -/
def frame (json : String) : Bytes :=
  leBytes 4 (UInt32.ofNat (asBytes json).length).toNat ++ asBytes json

def serializeMessage (msg : IpcMessage T) : Option Bytes := (SerdeJson.toString msg).map frame

def deserializeMessage (T : Type) [SerdeJson T] (buffer : Bytes) : Option (IpcMessage T) :=
  if buffer.length < 4 then none
  else
    let len := ofLeBytes (buffer.take 4)
    if buffer.length < 4 + len then none
    else
      match String.fromUTF8? ⟨((buffer.drop 4).take len).toArray⟩ with
      | none => none
      | some json => SerdeJson.fromStr json

end

inductive Effect where
  | processed (request : DaemonRequest)
  | written (response : Bytes)
deriving DecidableEq

variable {S : Type} (answer : S → DaemonRequest → DaemonResponse × S)

/-- `none` is the exit of the process. -/
def processRequest (s : S) : DaemonRequest → Option (DaemonResponse × S)
  | .shutdown => none
  | request => some (answer s request)

variable [SerdeJson DaemonRequest] [SerdeJson DaemonResponse]

/-- On what successive reads return: each is taken for a whole message. -/
def handleParticipantPeer : S → List Bytes → List Effect
  | _, [] => []
  | s, bytesRead :: reads =>
    match deserializeMessage DaemonRequest bytesRead with
    | none => []
    | some requestMsg =>
      match processRequest answer s requestMsg.payload with
      | none => [.processed requestMsg.payload]
      | some (response, s') =>
        match serializeMessage ⟨requestMsg.id, response⟩ with
        | none => [.processed requestMsg.payload]
        | some responseBytes => .processed requestMsg.payload :: .written responseBytes ::
            handleParticipantPeer s' reads

structure Cut (stream : Bytes) (reads : List Bytes) : Prop where
  whole : reads.flatten = stream
  nonempty : ∀ bytesRead ∈ reads, bytesRead ≠ []
  fits : ∀ bytesRead ∈ reads, bytesRead.length ≤ 8192

/-- The messages are processed in order, and each is answered under its id. -/
inductive Answers : S → List (IpcMessage DaemonRequest) → List Effect → Prop
  | nil {s} : Answers s [] []
  | cons {s msg msgs effects response s' responseBytes}
    (hprocess : processRequest answer s msg.payload = some (response, s'))
    (hwrite : serializeMessage ⟨msg.id, response⟩ = some responseBytes)
    (h : Answers s' msgs effects) :
    Answers s (msg :: msgs) (.processed msg.payload :: .written responseBytes :: effects)

section Bytes
omit [SerdeJson DaemonRequest] [SerdeJson DaemonResponse]

theorem zero_ne_ofNat {n : ℕ} (hn : n % 256 ≠ 0) : (0 : UInt8) ≠ UInt8.ofNat n := by
  intro h
  have hzero := congrArg UInt8.toNat h
  rw [UInt8.toNat_ofNat'] at hzero
  exact hn hzero.symm

theorem zero_not_mem_utf8 {c : Char} (hc : c ≠ Char.ofNat 0) :
    (0 : UInt8) ∉ String.utf8EncodeChar c := by
  have hpos : c.val.toNat ≠ 0 := by
    intro h
    apply hc
    apply Char.ext
    exact UInt32.toNat_inj.mp h
  unfold String.utf8EncodeChar
  dsimp only
  split_ifs with hone htwo hthree
  · rw [List.mem_singleton]
    exact zero_ne_ofNat (by omega)
  -- all bytes of a longer encoding have their highest bit set
  · simp only [List.mem_cons, List.not_mem_nil, or_false, not_or]
    exact ⟨zero_ne_ofNat (by omega), zero_ne_ofNat (by omega)⟩
  · simp only [List.mem_cons, List.not_mem_nil, or_false, not_or]
    exact ⟨zero_ne_ofNat (by omega), zero_ne_ofNat (by omega), zero_ne_ofNat (by omega)⟩
  · simp only [List.mem_cons, List.not_mem_nil, or_false, not_or]
    exact ⟨zero_ne_ofNat (by omega), zero_ne_ofNat (by omega), zero_ne_ofNat (by omega),
      zero_ne_ofNat (by omega)⟩

theorem asBytes_eq (s : String) : asBytes s = s.toList.flatMap String.utf8EncodeChar := by
  unfold asBytes
  rw [← String.utf8Encode_toList]
  simp [List.utf8Encode]

theorem zero_not_mem_asBytes {s : String} (h : Char.ofNat 0 ∉ s.toList) :
    (0 : UInt8) ∉ asBytes s := by
  rw [asBytes_eq, List.mem_flatMap]
  rintro ⟨c, hc, hzero⟩
  refine zero_not_mem_utf8 (fun heq => ?_) hzero
  rw [heq] at hc
  exact h hc

theorem asBytes_ne_nil {s : String} (h : s ≠ "") : asBytes s ≠ [] := by
  rw [asBytes_eq]
  intro hnil
  have hempty : s.toList = [] := by
    apply List.eq_nil_iff_forall_not_mem.mpr
    intro c hc
    exact String.utf8EncodeChar_ne_nil (List.flatMap_eq_nil_iff.mp hnil c hc)
  exact h (String.toList_eq_nil_iff.mp hempty)

variable {json : String}

theorem frame_length : (frame json).length = 4 + (asBytes json).length := by
  rw [frame, List.length_append, leBytes_length]

theorem frame_take (hlen : (asBytes json).length < 2 ^ 32) :
    ofLeBytes ((frame json).take 4) = (asBytes json).length := by
  have hcast : (UInt32.ofNat (asBytes json).length).toNat = (asBytes json).length := by
    rw [UInt32.toNat_ofNat']
    exact Nat.mod_eq_of_lt hlen
  rw [frame, List.take_left' (leBytes_length 4 _), ofLeBytes_leBytes, hcast]
  exact Nat.mod_eq_of_lt hlen

theorem frame_drop : (frame json).drop 4 = asBytes json := List.drop_left' (leBytes_length 4 _)

theorem frame_getElem?_ne (h : Char.ofNat 0 ∉ json.toList) {i : ℕ} (hi : 4 ≤ i) :
    (frame json)[i]? ≠ some 0 := by
  intro hget
  obtain ⟨k, rfl⟩ := Nat.exists_eq_add_of_le hi
  rw [← List.getElem?_drop, frame_drop] at hget
  exact zero_not_mem_asBytes h (List.mem_of_getElem? hget)

end Bytes

section Decoding
omit [SerdeJson DaemonResponse]

theorem deserializeMessage_serialize (hlaw : SerdeJson.Lawful DaemonRequest)
    {msg : IpcMessage DaemonRequest} {json : String} (hjson : SerdeJson.toString msg = some json)
    (hlen : (asBytes json).length < 2 ^ 32) :
    deserializeMessage DaemonRequest (frame json) = some msg := by
  unfold deserializeMessage
  dsimp only
  rw [if_neg (by rw [frame_length]; omega), frame_take hlen,
    if_neg (by rw [frame_length]; omega), frame_drop, List.take_length, fromUTF8_asBytes]
  exact hlaw.roundTrip msg json hjson

theorem length_of_deserialize {bytesRead : Bytes} {msg : IpcMessage DaemonRequest}
    (h : deserializeMessage DaemonRequest bytesRead = some msg) :
    4 + ofLeBytes (bytesRead.take 4) ≤ bytesRead.length := by
  unfold deserializeMessage at h
  dsimp only at h
  split at h
  · cases h
  · split at h
    · cases h
    · omega

def accepted (bytesRead : Bytes) : Bool :=
  decide (bytesRead.length ≤ 8192) && (deserializeMessage DaemonRequest bytesRead).isSome

theorem accepted_iff {bytesRead : Bytes} : accepted bytesRead = true ↔
    bytesRead.length ≤ 8192 ∧ ∃ msg, deserializeMessage DaemonRequest bytesRead = some msg := by
  rw [accepted, Bool.and_eq_true, decide_eq_true_iff, Option.isSome_iff_exists]

theorem length_of_accepted {bytesRead : Bytes} (h : accepted bytesRead = true) :
    2 < bytesRead.length := by
  obtain ⟨-, msg, hmsg⟩ := accepted_iff.mp h
  have hlen := length_of_deserialize hmsg
  omega

theorem zeros_of_accepted {bytesRead : Bytes} (h : accepted bytesRead = true) :
    bytesRead[2]? = some 0 ∧ bytesRead[3]? = some 0 := by
  obtain ⟨hfits, msg, hmsg⟩ := accepted_iff.mp h
  have hlen := length_of_deserialize hmsg
  match bytesRead, hfits, hlen with
  | b₀ :: b₁ :: b₂ :: b₃ :: rest, hfits, hlen =>
    simp only [List.take_succ_cons, List.take_zero, ofLeBytes] at hlen
    have hb₂ : b₂.toNat = 0 := by omega
    have hb₃ : b₃.toNat = 0 := by omega
    have hzero : ∀ b : UInt8, b.toNat = 0 → b = 0 := fun b hb => UInt8.toNat_inj.mp hb
    rw [hzero b₂ hb₂, hzero b₃ hb₃]
    exact ⟨rfl, rfl⟩

theorem frame_strict {json : String} (hlen : (asBytes json).length < 2 ^ 32) (hne : json ≠ "")
    (hescaped : Char.ofNat 0 ∉ json.toList) : Reads.Strict accepted 2 (frame json) where
  whole := by
    intro c rest hc hsplit
    obtain ⟨-, msg, hmsg⟩ := accepted_iff.mp hc
    have hlong := length_of_deserialize hmsg
    have htake : c.take 4 = (frame json).take 4 := by
      rw [← hsplit, List.take_append_of_le_length (by omega)]
    rw [htake, frame_take hlen, ← frame_length, ← hsplit, List.length_append] at hlong
    apply List.eq_nil_of_length_eq_zero
    omega
  inside := by
    intro s t bs rest hsplit hs hc hstarts
    obtain ⟨htwo, hthree⟩ := zeros_of_accepted hc
    have hlong := length_of_accepted hc
    by_contra hleft
    -- the third byte of the read, or the fourth, is one of the text
    have hget : ∀ i b, bs[i]? = some b → i < t.length →
        (frame json)[s.length + i]? = some b := by
      intro i b hb hi
      rw [hsplit, List.getElem?_append_right (Nat.le_add_right _ _), Nat.add_sub_cancel_left]
      obtain ⟨later, hlater⟩ := hstarts
      have hstream : (t ++ rest)[i]? = some b := by
        rw [← hlater, List.getElem?_append_left (List.getElem?_eq_some_iff.mp hb).1]
        exact hb
      rwa [List.getElem?_append_left hi] at hstream
    have hpos : 0 < s.length := List.length_pos_of_ne_nil hs
    rcases Nat.lt_or_ge s.length 2 with hone | hmore
    · have htext : 0 < (asBytes json).length := List.length_pos_of_ne_nil (asBytes_ne_nil hne)
      have hlength := congrArg List.length hsplit
      rw [frame_length, List.length_append] at hlength
      exact frame_getElem?_ne hescaped (by omega) (hget 3 0 hthree (by omega))
    · exact frame_getElem?_ne hescaped (by omega) (hget 2 0 htwo (by omega))

theorem frames_strict (hlaw : SerdeJson.Lawful DaemonRequest)
    {msgs : List (IpcMessage DaemonRequest)} {frames : List Bytes}
    (hframes : List.Forall₂ (fun msg f => serializeMessage msg = some f) msgs frames)
    (hshort : ∀ msg ∈ msgs, ∀ json, SerdeJson.toString msg = some json →
      (asBytes json).length < 2 ^ 32) : ∀ f ∈ frames, Reads.Strict accepted 2 f := by
  induction hframes with
  | nil => exact fun f hf => absurd hf List.not_mem_nil
  | @cons msg f msgs frames hserialize hframes ih =>
    obtain ⟨hfirst, hothers⟩ := List.forall_mem_cons.mp hshort
    obtain ⟨json, hjson, rfl⟩ := Option.map_eq_some_iff.mp hserialize
    refine List.forall_mem_cons.mpr ⟨?_, ih hothers⟩
    exact frame_strict (hfirst json hjson) (hlaw.nonempty msg json hjson)
      (hlaw.escaped msg json hjson)

end Decoding

section Loop
variable {answer}

def requests (effects : List Effect) : List DaemonRequest :=
  effects.filterMap fun
    | .processed request => some request
    | .written _ => none

omit [SerdeJson DaemonRequest] in
theorem Answers.requests_eq {s : S} {msgs : List (IpcMessage DaemonRequest)}
    {effects : List Effect} (h : Answers answer s msgs effects) :
    requests effects = msgs.map (·.payload) ∧ ∀ msg ∈ msgs, msg.payload ≠ .shutdown := by
  induction h with
  | nil => exact ⟨rfl, fun msg hmsg => absurd hmsg List.not_mem_nil⟩
  | @cons s msg msgs effects response s' responseBytes hprocess hwrite h ih =>
    obtain ⟨hrequests, hrest⟩ := ih
    refine ⟨congrArg (msg.payload :: ·) hrequests, List.forall_mem_cons.mpr ⟨?_, hrest⟩⟩
    intro hshutdown
    rw [hshutdown] at hprocess
    cases hprocess

theorem requests_handle_le (s : S) {reads : List Bytes}
    (hfits : ∀ bytesRead ∈ reads, bytesRead.length ≤ 8192) :
    (requests (handleParticipantPeer answer s reads)).length ≤ Reads.taken accepted reads := by
  induction reads generalizing s with
  | nil => exact Nat.le_refl 0
  | cons bytesRead reads ih =>
    obtain ⟨hfirst, hothers⟩ := List.forall_mem_cons.mp hfits
    unfold handleParticipantPeer
    cases hmsg : deserializeMessage DaemonRequest bytesRead with
    | none => exact Nat.zero_le _
    | some msg =>
      have haccepts : accepted bytesRead = true := accepted_iff.mpr ⟨hfirst, msg, hmsg⟩
      rw [Reads.taken_cons_of_accepts haccepts]
      dsimp only
      split
      · exact Nat.le_add_left 1 _
      · rename_i response s' hprocess
        split
        · exact Nat.le_add_left 1 _
        · exact Nat.succ_le_succ (ih s' hothers)

theorem answers_frames (hlaw : SerdeJson.Lawful DaemonRequest)
    (hwritten : ∀ msg : IpcMessage DaemonResponse, ∃ json, SerdeJson.toString msg = some json)
    (s : S) {msgs : List (IpcMessage DaemonRequest)} {frames : List Bytes}
    (hframes : List.Forall₂ (fun msg f => serializeMessage msg = some f) msgs frames)
    (hshort : ∀ msg ∈ msgs, ∀ json, SerdeJson.toString msg = some json →
      (asBytes json).length < 2 ^ 32)
    (hstays : ∀ msg ∈ msgs, msg.payload ≠ .shutdown) :
    Answers answer s msgs (handleParticipantPeer answer s frames) := by
  induction hframes generalizing s with
  | nil => exact .nil
  | @cons msg f msgs frames hserialize hframes ih =>
    obtain ⟨hfirst, hothers⟩ := List.forall_mem_cons.mp hshort
    obtain ⟨hstay, hrest⟩ := List.forall_mem_cons.mp hstays
    obtain ⟨json, hjson, rfl⟩ := Option.map_eq_some_iff.mp hserialize
    have hread := deserializeMessage_serialize hlaw hjson (hfirst json hjson)
    obtain ⟨response, s', hprocess⟩ :
        ∃ response s', processRequest answer s msg.payload = some (response, s') := by
      unfold processRequest
      split
      · exact absurd ‹_› hstay
      · exact ⟨_, _, rfl⟩
    obtain ⟨text, htext⟩ := hwritten ⟨msg.id, response⟩
    have hwrite : serializeMessage ⟨msg.id, response⟩ = some (frame text) := by
      rw [serializeMessage, htext]
      rfl
    unfold handleParticipantPeer
    rw [hread]
    dsimp only
    rw [hprocess]
    dsimp only
    rw [hwrite]
    exact .cons hprocess hwrite (ih s' hothers hrest)

end Loop

/-- The daemon answers the messages of a connection, each once and in order, if and only if every
read returns just one message, and none of them shuts it down. -/
theorem answered_iff_read_whole (hlaw : SerdeJson.Lawful DaemonRequest)
    (hwritten : ∀ msg : IpcMessage DaemonResponse, ∃ json, SerdeJson.toString msg = some json)
    (s : S) {msgs : List (IpcMessage DaemonRequest)} {frames reads : List Bytes}
    (hframes : List.Forall₂ (fun msg f => serializeMessage msg = some f) msgs frames)
    (hshort : ∀ msg ∈ msgs, ∀ json, SerdeJson.toString msg = some json →
      (asBytes json).length < 2 ^ 32)
    (hcut : Cut frames.flatten reads) :
    Answers answer s msgs (handleParticipantPeer answer s reads) ↔
      reads = frames ∧ ∀ msg ∈ msgs, msg.payload ≠ .shutdown := by
  constructor
  · intro h
    obtain ⟨hrequests, hstays⟩ := h.requests_eq
    refine ⟨?_, hstays⟩
    have hcount : frames.length ≤ Reads.taken accepted reads := by
      have hle : (requests (handleParticipantPeer answer s reads)).length ≤
          Reads.taken accepted reads :=
        requests_handle_le s hcut.fits
      rwa [hrequests, List.length_map, hframes.length_eq] at hle
    exact Reads.eq_of_taken (fun _ => length_of_accepted) (frames_strict hlaw hframes hshort)
      hcut.nonempty hcut.whole hcount
  · rintro ⟨rfl, hstays⟩
    exact answers_frames hlaw hwritten s hframes hshort hstays

end Kdapp.KaspaAuth

namespace Kdapp.KaspaAuth
open Borsh
open CommentBoard (hex)

def DaemonRequest.fields : DaemonRequest → UInt8 × UInt64 × String × String
  | .ping => (0, 0, "", "")
  | .unlock password username => (1, 0, password, username)
  | .lock => (2, 0, "", "")
  | .status => (3, 0, "", "")
  | .signChallenge challenge username => (4, 0, challenge, username)
  | .createIdentity username password => (5, 0, username, password)
  | .listIdentities => (6, 0, "", "")
  | .listSessions => (7, 0, "", "")
  | .authenticate peerUrl username => (8, 0, peerUrl, username)
  | .revokeSession episodeId sessionToken username => (9, episodeId, sessionToken, username)
  | .shutdown => (10, 0, "", "")

def DaemonRequest.ofFields : UInt8 × UInt64 × String × String → Option DaemonRequest
  | (0, _, _, _) => some .ping
  | (1, _, password, username) => some (.unlock password username)
  | (2, _, _, _) => some .lock
  | (3, _, _, _) => some .status
  | (4, _, challenge, username) => some (.signChallenge challenge username)
  | (5, _, username, password) => some (.createIdentity username password)
  | (6, _, _, _) => some .listIdentities
  | (7, _, _, _) => some .listSessions
  | (8, _, peerUrl, username) => some (.authenticate peerUrl username)
  | (9, episodeId, sessionToken, username) => some (.revokeSession episodeId sessionToken username)
  | (10, _, _, _) => some .shutdown
  | _ => none

def sampleCodec : Codec (IpcMessage DaemonRequest) :=
  (Codec.u64.pair (Codec.u8.pair (Codec.u64.pair (Codec.string.pair Codec.string)))).via
    (fun msg => (msg.id, msg.payload.fields))
    fun (id, fields) => (DaemonRequest.ofFields fields).map (⟨id, ·⟩)

theorem sampleCodec_lawful : sampleCodec.Lawful := by
  apply Codec.Lawful.via
  · exact Codec.u64_lawful.pair (Codec.u8_lawful.pair (Codec.u64_lawful.pair
      (Codec.string_lawful.pair Codec.string_lawful)))
  · rintro ⟨id, payload⟩
    cases payload <;> rfl

def pingText (id : UInt64) : String :=
  "\x7b\"id\":" ++ id.toNat.repr ++ ",\"payload\":\"Ping\"\x7d"

/-- Two pings are written as `serde_json` does, everything else in hexadecimal. -/
@[reducible] def sampleJson : SerdeJson DaemonRequest where
  toString msg :=
    if msg = ⟨1, .ping⟩ then some (pingText 1)
    else if msg = ⟨2, .ping⟩ then some (pingText 2)
    else (sampleCodec.serialize msg).map hex
  fromStr json :=
    if json = pingText 1 then some ⟨1, .ping⟩
    else if json = pingText 2 then some ⟨2, .ping⟩
    else (hexDecode json.toList).bind sampleCodec.fromSlice

@[reducible] def samplePong : SerdeJson DaemonResponse where
  toString msg := some ("\x7b\"id\":" ++ msg.id.toNat.repr ++ ",\"payload\":\x7b\"Pong\":\x7b" ++
    "\"version\":\"0.1.0\",\"uptime_seconds\":0,\"identities_loaded\":0\x7d\x7d\x7d")
  fromStr _ := none

attribute [local instance] sampleJson samplePong

theorem sampleJson_cases {msg : IpcMessage DaemonRequest} {json : String}
    (h : SerdeJson.toString msg = some json) :
    (msg = ⟨1, .ping⟩ ∧ json = pingText 1) ∨ (msg = ⟨2, .ping⟩ ∧ json = pingText 2) ∨
      ∃ bs, sampleCodec.serialize msg = some bs ∧ json = hex bs := by
  dsimp only [SerdeJson.toString] at h
  split_ifs at h with hone htwo
  · exact .inl ⟨hone, (Option.some.inj h).symm⟩
  · exact .inr (.inl ⟨htwo, (Option.some.inj h).symm⟩)
  · obtain ⟨bs, hbs, rfl⟩ := Option.map_eq_some_iff.mp h
    exact .inr (.inr ⟨bs, hbs, rfl⟩)

theorem hex_ne {text : String} (h : hexDecode text.toList = none) (bs : Bytes) :
    hex bs ≠ text := by
  rintro rfl
  rw [hexDecode_hex] at h
  cases h

theorem sampleJson_lawful : SerdeJson.Lawful DaemonRequest where
  roundTrip msg json h := by
    rcases sampleJson_cases h with ⟨rfl, rfl⟩ | ⟨rfl, rfl⟩ | ⟨bs, hbs, rfl⟩
    · rfl
    · rfl
    · dsimp only [SerdeJson.fromStr]
      have hone : hex bs ≠ pingText 1 := hex_ne (by decide +kernel) bs
      have htwo : hex bs ≠ pingText 2 := hex_ne (by decide +kernel) bs
      rw [if_neg hone, if_neg htwo, hexDecode_hex]
      exact sampleCodec_lawful.fromSlice hbs
  nonempty msg json h := by
    rcases sampleJson_cases h with ⟨-, rfl⟩ | ⟨-, rfl⟩ | ⟨bs, hbs, rfl⟩
    · decide +kernel
    · decide +kernel
    · intro hempty
      have hdecode := hexDecode_hex bs
      rw [hempty] at hdecode
      cases hdecode
      have hread := sampleCodec_lawful.fromSlice hbs
      cases hread
  escaped msg json h := by
    rcases sampleJson_cases h with ⟨-, rfl⟩ | ⟨-, rfl⟩ | ⟨bs, hbs, rfl⟩
    · decide +kernel
    · decide +kernel
    · have hall : ∀ n : Fin 16, Char.ofNat 0 ≠ Nat.digitChar n := by decide
      have hdigit : ∀ n, n < 16 → Char.ofNat 0 ≠ Nat.digitChar n := fun n hn => hall ⟨n, hn⟩
      unfold hex
      rw [String.toList_ofList, List.mem_flatMap]
      rintro ⟨b, -, hmem⟩
      rcases List.mem_cons.mp hmem with hhi | hlo
      · exact hdigit _ (Nat.div_lt_of_lt_mul b.toNat_lt) hhi
      · exact hdigit _ (Nat.mod_lt _ (by decide)) (List.mem_singleton.mp hlo)

def pong (uptime : Unit) (_ : DaemonRequest) : DaemonResponse × Unit :=
  (.pong "0.1.0" 0 0, uptime)

def pings : List (IpcMessage DaemonRequest) := [⟨1, .ping⟩, ⟨2, .ping⟩]

def pingFrames : List Bytes := [frame (pingText 1), frame (pingText 2)]

theorem pingFrames_serialized :
    List.Forall₂ (fun msg f => serializeMessage msg = some f) pings pingFrames :=
  .cons rfl (.cons rfl .nil)

theorem pings_short : ∀ msg ∈ pings, ∀ json, SerdeJson.toString msg = some json →
    (asBytes json).length < 2 ^ 32 := by
  intro msg hmsg json hjson
  rcases List.mem_cons.mp hmsg with rfl | hmsg
  · cases hjson
    decide +kernel
  · cases List.mem_singleton.mp hmsg
    cases hjson
    decide +kernel

theorem pingFrames_cut : Cut pingFrames.flatten [pingFrames.flatten] where
  whole := List.append_nil _
  nonempty := by
    intro bytesRead hmem
    cases List.mem_singleton.mp hmem
    decide +kernel
  fits := by
    intro bytesRead hmem
    cases List.mem_singleton.mp hmem
    decide +kernel

theorem answered_iff_read_whole_at :
    Answers pong () pings (handleParticipantPeer pong () [pingFrames.flatten]) ↔
      [pingFrames.flatten] = pingFrames ∧ ∀ msg ∈ pings, msg.payload ≠ .shutdown :=
  answered_iff_read_whole pong sampleJson_lawful (fun _ => ⟨_, rfl⟩) () pingFrames_serialized
    pings_short pingFrames_cut

/-- The second ping is not answered. -/
theorem coalesced_request_lost :
    ¬ ∀ (msgs : List (IpcMessage DaemonRequest)) (frames reads : List Bytes),
      List.Forall₂ (fun msg f => serializeMessage msg = some f) msgs frames →
      (∀ msg ∈ msgs, ∀ json, SerdeJson.toString msg = some json →
        (asBytes json).length < 2 ^ 32) →
      Cut frames.flatten reads → Answers pong () msgs (handleParticipantPeer pong () reads) := by
  intro h
  have hanswers := h pings pingFrames _ pingFrames_serialized pings_short pingFrames_cut
  have hwhole := ((answered_iff_read_whole pong sampleJson_lawful (fun _ => ⟨_, rfl⟩) ()
    pingFrames_serialized pings_short pingFrames_cut).mp hanswers).1
  exact absurd (congrArg List.length hwhole) (by decide)

end Kdapp.KaspaAuth
