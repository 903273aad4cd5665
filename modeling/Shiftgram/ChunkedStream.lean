import Shiftgram.Runs
import Shiftgram.SignedChunks

/- `AWSS3ChunkedEncodingInputStream`, the stream that the body of an upload is read from. It takes a
   chunk from the stream below whenever the one before was read off, of as many bytes as fit into the
   reader's buffer with header and signature, signs it, and ends with an empty chunk.

   1. S3 takes all that was read, and the data it has is a beginning of the file (`accepted_run`).
   2. Read to its end, the body is taken as a whole exactly if the stream below never failed; it holds the
      file exactly if, besides, no chunk was begun with a buffer that the empty one fills (`delivered_iff`):
      the code takes the lack of room for the end of the file.
   3. Where all buffers are of one size and the stream below fills its chunks, the length of the body is
      what `computeContentLengthForChunkedData:` says (`contentLength_run`).
   4. The header bytes that the progress is corrected by are the ones that were written exactly if every
      chunk was shorter than 16⁶ (`chunkSignature_iff`).

   A chunk that is begun with a smaller buffer yet makes the room for its data wrap around; what comes of
   that is left open (`none`). Assumed: S3 signs as the code does; buffers are smaller than 4 GiB; the
   stream below gives between one byte and as many as are asked for, until it is at its end; one stream
   is read at a time, since `defaultChunkSize` is shared by all of them. -/
namespace Shiftgram

namespace AWSS3ChunkedEncodingInputStream

open SignedChunks

/-- What `CC_SHA256` and `CCHmac` write. -/
structure Digest where
  bytes : Octets
  length_eq : bytes.length = 32

/-- The stream's own constants, and the functions of the system. -/
structure Signer where
  hash : Octets → Digest
  /-- `sha256HMacWithData:withKey:`, with the key of the stream. -/
  sha256HMac : Octets → Digest
  date : Octets
  scope : Octets
  headerSignature : Octets

def emptyStringSha256 : Octets := text "e3b0c44298fc1c149afbf4c8996fb92427ae41e4649b934ca495991b7852b855"

def hexEncode (bytes : Octets) : Octets :=
  bytes.flatMap fun b => (if b.toNat < 16 then text "0" else []) ++ (Nat.toDigits 16 b.toNat).map Char.toUInt8

variable (m : Signer)

def stringToSign (priorSha256 data : Octets) : Octets :=
  text "AWS4-HMAC-SHA256-PAYLOAD\n" ++ m.date ++ text "\n" ++ m.scope ++ text "\n" ++ priorSha256 ++
    text "\n" ++ emptyStringSha256 ++ text "\n" ++ hexEncode (m.hash data).bytes

/-- The signature of a chunk. -/
def sign (priorSha256 data : Octets) : Octets := hexEncode (m.sha256HMac (stringToSign m priorSha256 data)).bytes

def oneChunkedDataSize (dataLength : Nat) : Nat :=
  (header dataLength emptyStringSha256).length + dataLength + (text "\r\n").length

def computeContentLengthForChunkedData (defaultChunkSize dataLength : Nat) : Nat :=
  dataLength / defaultChunkSize * oneChunkedDataSize defaultChunkSize +
    (if 0 < dataLength % defaultChunkSize then oneChunkedDataSize (dataLength % defaultChunkSize) else 0) +
    oneChunkedDataSize 0

structure State where
  /-- What the stream below has not given yet. -/
  rest : Octets
  chunkData : Octets
  location : Nat
  endOfStream : Bool
  priorSha256 : Octets
  totalLengthOfChunkSignatureSent : Nat
  /-- All that was read so far. -/
  sent : Octets
  deriving DecidableEq

def State.init (file : Octets) : State := ⟨file, [], 0, false, m.headerSignature, 0, []⟩

/-- `getSignedChunk:`, put into `chunkData`. -/
def signChunk (s : State) (data : Octets) : State :=
  { s with
    chunkData := chunk (sign m s.priorSha256 data) data
    priorSha256 := sign m s.priorSha256 data
    totalLengthOfChunkSignatureSent := s.totalLengthOfChunkSignatureSent + oneChunkedDataSize 0 }

/-- `nextChunk`, when the stream below gives so many bytes, or fails. -/
def nextChunk (s : State) (given : Option Nat) : State × Bool :=
  if s.endOfStream = true then (s, false)
  else
    match given with
    | none => ({ s with chunkData := [], endOfStream := true }, false)
    | some count =>
      (signChunk m { s with rest := s.rest.drop count, endOfStream := count == 0 } (s.rest.take count), true)

/-- The rest of `read:maxLength:`. -/
def copy (s : State) (len : Nat) : State :=
  let length := min len (s.chunkData.length - s.location)
  { s with location := s.location + length, sent := s.sent ++ (s.chunkData.drop s.location).take length }

structure Reading where
  len : Nat
  /-- What the stream below gives if it is asked. -/
  given : Option Nat
  deriving DecidableEq

/-- A new chunk is asked for. -/
def Begins (s : State) : Prop := s.chunkData.length ≤ s.location ∧ s.endOfStream = false

instance (s : State) : Decidable (Begins s) := inferInstanceAs (Decidable (_ ∧ _))

/-- `read:maxLength:` -/
def read (s : State) (e : Reading) : Option State :=
  if s.chunkData.length ≤ s.location then
    if s.endOfStream = false ∧ e.len < oneChunkedDataSize 0 then none
    else
      match nextChunk m s e.given with
      | (s', true) => some (copy { s' with location := 0 } e.len)
      | (s', false) => some s'
  else some (copy s e.len)

/-- The room for data that a buffer has. -/
def Reading.defaultChunkSize (e : Reading) : Nat := e.len - oneChunkedDataSize 0

def Enabled (s : State) (e : Reading) : Prop :=
  e.len < 2 ^ 32 ∧ (Begins s → ∀ count ∈ e.given,
    count ≤ e.defaultChunkSize ∧ count ≤ s.rest.length ∧ (count = 0 → e.defaultChunkSize = 0 ∨ s.rest = []))

instance (s : State) (e : Reading) : Decidable (Enabled s e) := inferInstanceAs (Decidable (_ ∧ (_ → _)))

/-! ## Sizes -/

theorem length_hexByte (n : Nat) (h : n < 256) :
    ((if n < 16 then text "0" else []) ++ (Nat.toDigits 16 n).map Char.toUInt8).length = 2 := by
  rw [Nat.toDigits_eq_if (by decide)]
  split
  · rfl
  · rw [Nat.toDigits_eq_if (by decide), if_pos (by omega)]
    rfl

theorem length_hexEncode (bytes : Octets) : (hexEncode bytes).length = 2 * bytes.length := by
  induction bytes with
  | nil => rfl
  | cons b bytes ih =>
    have hbyte := length_hexByte b.toNat b.toNat_lt
    have hcons : hexEncode (b :: bytes) = ((if b.toNat < 16 then text "0" else []) ++
      (Nat.toDigits 16 b.toNat).map Char.toUInt8) ++ hexEncode bytes := rfl
    rw [hcons, List.length_append, hbyte, ih, List.length_cons]
    omega

theorem lf_not_mem_hexEncode (bytes : Octets) : lf ∉ hexEncode bytes := by
  intro hmem
  obtain ⟨b, -, hb⟩ := List.mem_flatMap.1 hmem
  rw [List.mem_append] at hb
  obtain hb | hb := hb
  · split at hb
    · exact absurd hb (by decide)
    · cases hb
  · exact mem_toDigits hb (by decide)

theorem length_sign (priorSha256 data : Octets) : (sign m priorSha256 data).length = 64 := by
  rw [sign, length_hexEncode, Digest.length_eq]

theorem lf_not_mem_sign (priorSha256 data : Octets) : lf ∉ sign m priorSha256 data := lf_not_mem_hexEncode _

theorem oneChunkedDataSize_eq (dataLength : Nat) :
    oneChunkedDataSize dataLength = (hex dataLength).length + 85 + dataLength := by
  simp only [oneChunkedDataSize, header, List.length_append]
  rw [show name.length = 17 by decide, show emptyStringSha256.length = 64 by decide,
    show crlf.length = 2 by decide, show (text "\r\n").length = 2 by decide]
  omega

theorem oneChunkedDataSize_zero : oneChunkedDataSize 0 = 91 := by decide

/-- Every signature is as long as the one the sizes are computed with. -/
theorem length_signed (priorSha256 data : Octets) :
    (chunk (sign m priorSha256 data) data).length = oneChunkedDataSize data.length := by
  rw [length_chunk, length_sign, oneChunkedDataSize_eq, show name.length = 17 by decide,
    show crlf.length = 2 by decide]
  omega

/-! ## What a read does -/

/-- The part of the chunk that was not read yet. -/
def pending (s : State) : Octets := s.chunkData.drop s.location

/-- The next chunk, of so many bytes. -/
def begun (s : State) (count : Nat) : State :=
  { signChunk m { s with rest := s.rest.drop count, endOfStream := count == 0 } (s.rest.take count) with
    location := 0 }

variable {m} {s s' : State} {e : Reading}

theorem pending_of_begins (h : Begins s) : pending s = [] := List.drop_eq_nil_of_le h.1

/-- Reading moves bytes from one to the other. -/
theorem sent_copy (s : State) (len : Nat) : (copy s len).sent ++ pending (copy s len) = s.sent ++ pending s := by
  simp only [copy, pending, List.append_assoc, ← List.drop_drop, List.take_append_drop]

/-- A read goes on with its chunk, or the stream below fails, or a chunk is begun. -/
theorem read_cases (h : read m s e = some s') :
    (¬Begins s ∧ (s' = s ∨ s' = copy s e.len)) ∨
    (Begins s ∧ e.given = none ∧ s' = { s with chunkData := [], endOfStream := true }) ∨
    (Begins s ∧ ∃ count, e.given = some count ∧ s' = copy (begun m s count) e.len) := by
  unfold read at h
  split at h
  · next hlocation =>
    cases hend : s.endOfStream with
    | true =>
      refine Or.inl ⟨fun hbegins => by simp [Begins, hend] at hbegins, Or.inl ?_⟩
      simpa [nextChunk, hend] using h.symm
    | false =>
      split at h
      · cases h
      · cases hgiven : e.given with
        | none =>
          refine Or.inr (Or.inl ⟨⟨hlocation, hend⟩, rfl, ?_⟩)
          simpa [nextChunk, hend, hgiven] using h.symm
        | some count =>
          simp only [nextChunk, hend, hgiven, Bool.false_eq_true, if_false] at h
          exact Or.inr (Or.inr ⟨⟨hlocation, hend⟩, count, rfl, (Option.some.inj h).symm⟩)
  · next hlocation =>
    exact Or.inl ⟨fun hbegins => hlocation hbegins.1, Or.inr (Option.some.inj h).symm⟩

/-! ## What S3 takes -/

/-- S3 takes what was read and what is still to be read of the chunk. -/
structure Inv (m : Signer) (file : Octets) (s : State) (data : Octets) (phase : Phase) : Prop where
  split : data ++ s.rest = file
  received : receive (sign m) (.init m.headerSignature) (s.sent ++ pending s) =
    some ⟨s.priorSha256, data, phase⟩
  opened : s.endOfStream = false → phase = .header []

theorem inv_init (m : Signer) (file : Octets) : Inv m file (State.init m file) [] (.header []) :=
  ⟨rfl, rfl, fun _ => rfl⟩

variable {file data : Octets} {phase : Phase}

/-- The stream below does not fail. -/
def Unfailed (s : State) (e : Reading) : Prop := Begins s → e.given ≠ none

/-- Nor is there no room for what it still has. -/
def Roomy (s : State) (e : Reading) : Prop :=
  Begins s → e.given ≠ none ∧ (e.defaultChunkSize = 0 → s.rest = [])

instance (s : State) (e : Reading) : Decidable (Unfailed s e) := inferInstanceAs (Decidable (_ → _))

instance (s : State) (e : Reading) : Decidable (Roomy s e) := inferInstanceAs (Decidable (_ → _ ∧ (_ → _)))

/-- With the last chunk S3 has a whole body. -/
def Closed (m : Signer) (s : State) : Prop := s.endOfStream = true →
  ∃ r, receive (sign m) (.init m.headerSignature) (s.sent ++ pending s) = some r ∧ r.phase = .done

/-- And this is the file. -/
def Whole (m : Signer) (file : Octets) (s : State) : Prop := s.endOfStream = true →
  ∃ r, receive (sign m) (.init m.headerSignature) (s.sent ++ pending s) = some r ∧ r.phase = .done ∧
    r.payload = file

section Accepted

variable (h : Inv m file s data phase)
include h

theorem inv_copy (len : Nat) : Inv m file (copy s len) data phase :=
  ⟨h.split, (sent_copy s len).symm ▸ h.received, h.opened⟩

theorem inv_failed (hbegins : Begins s) :
    Inv m file { s with chunkData := [], endOfStream := true } data (.header []) where
  split := h.split
  received := by
    have hreceived := h.received
    rw [pending_of_begins hbegins, h.opened hbegins.2] at hreceived
    simpa [pending] using hreceived
  opened := fun _ => rfl

theorem inv_begun (hbegins : Begins s) (count : Nat) (hcount : count ≤ s.rest.length) :
    Inv m file (begun m s count) (data ++ s.rest.take count) (if count = 0 then .done else .header []) where
  split := by
    rw [List.append_assoc]
    show data ++ (s.rest.take count ++ s.rest.drop count) = file
    rw [List.take_append_drop, h.split]
  received := by
    have hreceived := h.received
    rw [pending_of_begins hbegins, h.opened hbegins.2, List.append_nil] at hreceived
    have hempty : s.rest.take count = [] ↔ count = 0 := by
      rw [← List.length_eq_zero_iff, List.length_take, min_eq_left hcount]
    show receive (sign m) _ (s.sent ++ chunk (sign m s.priorSha256 (s.rest.take count)) (s.rest.take count)) = _
    rw [receive_append, hreceived, Option.bind_some,
      receive_chunk rfl (s.rest.take count) (lf_not_mem_sign m _ _)]
    simp only [hempty]
    rfl
  opened := by
    intro hend
    rw [if_neg (by simpa [begun, signChunk] using hend)]

/-- All that was read, wherever it stops. -/
theorem accepted_of_inv :
    ∃ r, receive (sign m) (.init m.headerSignature) s.sent = some r ∧ r.payload <+: file ∧
      (r.phase = .done → s.endOfStream = true ∧ pending s = []) := by
  obtain ⟨r, hr, hrest⟩ := receive_prefix h.received
  refine ⟨r, hr, (payload_receive hrest).trans ⟨s.rest, h.split⟩, fun hdone => ?_⟩
  have hpending : pending s = [] := by
    by_contra hne
    exact not_done_of_append hne hrest hdone
  rw [hpending] at hrest
  obtain rfl := Option.some.inj hrest
  refine ⟨?_, hpending⟩
  by_contra hopen
  rw [h.opened (by simpa using hopen)] at hdone
  cases hdone

theorem closed_iff : Closed m s ↔ (s.endOfStream = true → phase = .done) := by
  simp [Closed, h.received]

theorem whole_iff : Whole m file s ↔ (s.endOfStream = true → phase = .done ∧ s.rest = []) := by
  have hdata : data = file ↔ s.rest = [] := by
    rw [← h.split]
    exact List.self_eq_append_right
  simp [Whole, h.received, hdata]

end Accepted

/-- One read: what S3 takes, and whether it still can have a whole body, and the file. -/
theorem inv_read (h : Inv m file s data phase) (he : Enabled s e) (hs' : read m s e = some s') :
    (∃ data' phase', Inv m file s' data' phase') ∧ (Closed m s' ↔ Closed m s ∧ Unfailed s e) ∧
      (Whole m file s' ↔ Whole m file s ∧ Roomy s e) := by
  obtain ⟨hnot, hkept⟩ | ⟨hbegins, hgiven, rfl⟩ | ⟨hbegins, count, hgiven, rfl⟩ := read_cases hs'
  · have hunfailed : Unfailed s e := fun hbegins => absurd hbegins hnot
    have hroomy : Roomy s e := fun hbegins => absurd hbegins hnot
    rw [and_iff_left hunfailed, and_iff_left hroomy]
    obtain rfl | rfl := hkept
    · exact ⟨⟨data, phase, h⟩, Iff.rfl, Iff.rfl⟩
    · have h' := inv_copy h e.len
      refine ⟨⟨data, phase, h'⟩, ?_, ?_⟩
      · rw [closed_iff h', closed_iff h]
        rfl
      · rw [whole_iff h', whole_iff h]
        rfl
  · have h' := inv_failed h hbegins
    refine ⟨⟨data, _, h'⟩, ?_, ?_⟩
    · rw [closed_iff h']
      simp [Unfailed, hbegins, hgiven]
    · rw [whole_iff h']
      simp [Roomy, hbegins, hgiven]
  · obtain ⟨hroom, hcount, hnone⟩ := he.2 hbegins count hgiven
    have h' := inv_copy (inv_begun h hbegins count hcount) e.len
    have hend : (copy (begun m s count) e.len).endOfStream = (count == 0) := rfl
    have hrest : (copy (begun m s count) e.len).rest = s.rest.drop count := rfl
    refine ⟨⟨_, _, h'⟩, ?_, ?_⟩
    · rw [closed_iff h', closed_iff h, hend]
      simp [Unfailed, hbegins.2, hgiven]
    · rw [whole_iff h', whole_iff h, hend, hrest]
      simp only [Roomy, hbegins, hbegins.2, hgiven]
      by_cases hzero : count = 0
      · subst hzero
        obtain hfull | hrest := hnone rfl
        · simp [hfull]
        · simp [hrest]
      · have hsize : e.defaultChunkSize ≠ 0 := by omega
        simp [hzero, hsize]

/-- All that is read of a body is taken by S3, which has a whole one only when it was read to its end. -/
theorem accepted_run (m : Signer) (file : Octets) (run : Runs.Schedule (read m) Enabled (State.init m file)) :
    Runs.Throughout (read m) (fun s => ∃ r, receive (sign m) (.init m.headerSignature) s.sent = some r ∧
      r.payload <+: file ∧ (r.phase = .done → s.endOfStream = true ∧ pending s = []))
      (State.init m file) run.events := by
  refine Runs.throughout_ok (I := fun s => ∃ data phase, Inv m file s data phase) ?_ ?_
    ⟨_, _, inv_init m file⟩ run.enabled
  · rintro s e ⟨data, phase, h⟩ he s' hs'
    exact (inv_read h he hs').1
  · rintro s ⟨data, phase, h⟩
    exact accepted_of_inv h

/-- A body that was read to its end: S3 has a whole one exactly if the stream below never failed, and
    the file exactly if there was room for data too where a chunk was begun before its end. -/
theorem delivered_iff (m : Signer) (file : Octets) (es : List Reading) {t : State}
    (hes : Runs.Along (read m) Enabled (State.init m file) es)
    (ht : Runs.exec (read m) (State.init m file) es = some t) (hend : t.endOfStream = true)
    (hpending : pending t = []) :
    ((∃ r, receive (sign m) (.init m.headerSignature) t.sent = some r ∧ r.phase = .done) ↔
      Runs.Along (read m) Unfailed (State.init m file) es) ∧
    ((∃ r, receive (sign m) (.init m.headerSignature) t.sent = some r ∧ r.phase = .done ∧ r.payload = file) ↔
      Runs.Along (read m) Roomy (State.init m file) es) := by
  have hstart : ∃ data phase, Inv m file (State.init m file) data phase := ⟨_, _, inv_init m file⟩
  have hread : ∀ s e s', (∃ data phase, Inv m file s data phase) → Enabled s e → read m s e = some s' →
      (∃ data phase, Inv m file s' data phase) ∧ (Closed m s' ↔ Closed m s ∧ Unfailed s e) ∧
        (Whole m file s' ↔ Whole m file s ∧ Roomy s e) := by
    rintro s e s' ⟨data, phase, h⟩ he hs'
    exact inv_read h he hs'
  obtain ⟨-, hclosed⟩ := Runs.exec_iff_along_trap
    (fun s e s' h he hs' => ⟨(hread s e s' h he hs').1, (hread s e s' h he hs').2.1⟩) hstart hes ht
  obtain ⟨-, hwhole⟩ := Runs.exec_iff_along_trap
    (fun s e s' h he hs' => ⟨(hread s e s' h he hs').1, (hread s e s' h he hs').2.2⟩) hstart hes ht
  rw [and_iff_right (show Closed m (State.init m file) by simp [Closed, State.init])] at hclosed
  rw [and_iff_right (show Whole m file (State.init m file) by simp [Whole, State.init])] at hwhole
  rw [← hclosed, ← hwhole]
  simp [Closed, Whole, hend, hpending]

/-- A signer for tests, whose digests are all zeros. -/
def Signer.zeros : Signer where
  hash := fun _ => ⟨List.replicate 32 0, rfl⟩
  sha256HMac := fun _ => ⟨List.replicate 32 0, rfl⟩
  date := []
  scope := []
  headerSignature := []

/-- A chunk that does not fill its buffer, after which the stream below fails. -/
theorem accepted_threeBytes :
    (Runs.exec (read .zeros) (State.init .zeros [1, 2, 3])
        [⟨100, some 2⟩, ⟨93, none⟩, ⟨91, some 0⟩]).map (fun s => (s.rest, s.endOfStream)) =
      some ([3], true) ∧
    Runs.Throughout (read .zeros) (fun s => ∃ r, receive (sign .zeros) (.init []) s.sent = some r ∧
        r.payload <+: [1, 2, 3] ∧ (r.phase = .done → s.endOfStream = true ∧ pending s = []))
      (State.init .zeros [1, 2, 3]) [⟨100, some 2⟩, ⟨93, none⟩, ⟨91, some 0⟩] :=
  ⟨by decide, accepted_run .zeros [1, 2, 3] ⟨[⟨100, some 2⟩, ⟨93, none⟩, ⟨91, some 0⟩], by decide⟩⟩

/-- Three bytes in two chunks. -/
theorem delivered_threeBytes : ∃ t, Runs.exec (read .zeros) (State.init .zeros [1, 2, 3])
      [⟨93, some 2⟩, ⟨92, some 1⟩, ⟨91, some 0⟩] = some t ∧
    ∃ r, receive (sign .zeros) (.init []) t.sent = some r ∧ r.phase = .done ∧ r.payload = [1, 2, 3] :=
  ⟨_, rfl, (delivered_iff .zeros [1, 2, 3] [⟨93, some 2⟩, ⟨92, some 1⟩, ⟨91, some 0⟩] (by decide) rfl rfl rfl).2.2
    (by decide)⟩

/-! ## Lengths -/

/-- What was handed out and what is about to be, of a chunk more. -/
theorem length_begun (hbegins : Begins s) (count : Nat) (hcount : count ≤ s.rest.length) :
    ((begun m s count).sent ++ pending (begun m s count)).length =
      (s.sent ++ pending s).length + oneChunkedDataSize count := by
  have hchunk : (s.rest.take count).length = count := by rw [List.length_take, min_eq_left hcount]
  have hsize := length_signed m s.priorSha256 (s.rest.take count)
  rw [hchunk] at hsize
  rw [pending_of_begins hbegins, List.append_nil]
  show (s.sent ++ chunk (sign m s.priorSha256 (s.rest.take count)) (s.rest.take count)).length = _
  rw [List.length_append, hsize]

theorem computeContentLength_add {size dataLength count : Nat} (hdata : dataLength % size = 0) (hpos : 0 < count)
    (hcount : count ≤ size) : computeContentLengthForChunkedData size (dataLength + count) =
      computeContentLengthForChunkedData size dataLength + oneChunkedDataSize count := by
  obtain ⟨k, rfl⟩ := Nat.dvd_of_mod_eq_zero hdata
  have hsize : 0 < size := by omega
  simp only [computeContentLengthForChunkedData, Nat.mul_add_mod_self_left, Nat.mul_mod_right,
    Nat.mul_add_div hsize, Nat.mul_div_right _ hsize]
  obtain hlt | rfl := Nat.lt_or_eq_of_le hcount
  · rw [Nat.mod_eq_of_lt hlt, Nat.div_eq_of_lt hlt, if_pos hpos]
    simp
    omega
  · rw [Nat.mod_self, Nat.div_self hsize]
    simp [Nat.add_mul]
    omega

/-- The buffers are all of this size, and the stream below gives all that it can. -/
def Filled (len : Nat) (s : State) (e : Reading) : Prop :=
  e.len = len ∧ (Begins s → e.given = some (min e.defaultChunkSize s.rest.length))

/-- What is written so far is what is computed for the data it holds. -/
structure Sized (size : Nat) (file : Octets) (s : State) : Prop where
  read : s.rest.length ≤ file.length
  length : (s.sent ++ pending s).length + (if s.endOfStream = true then 0 else oneChunkedDataSize 0) =
    computeContentLengthForChunkedData size (file.length - s.rest.length)
  full : s.rest ≠ [] → (file.length - s.rest.length) % size = 0
  ended : s.endOfStream = true → s.rest = []

theorem sized_init (m : Signer) (size : Nat) (file : Octets) : Sized size file (State.init m file) where
  read := le_rfl
  length := by simp [State.init, pending, computeContentLengthForChunkedData]
  full := by simp [State.init]
  ended := by simp [State.init]

theorem sized_read {size : Nat} (hpos : 0 < size) (h : Sized size file s)
    (hgive : Begins s → e.given = some (min size s.rest.length)) (hs' : read m s e = some s') :
    Sized size file s' := by
  obtain ⟨-, rfl | rfl⟩ | ⟨hbegins, hgiven, rfl⟩ | ⟨hbegins, count, hgiven, rfl⟩ := read_cases hs'
  · exact h
  · exact ⟨h.read, by rw [sent_copy]; exact h.length, h.full, h.ended⟩
  · rw [hgive hbegins] at hgiven
    cases hgiven
  · have hcount : min size s.rest.length = count := Option.some.inj ((hgive hbegins).symm.trans hgiven)
    have hread := h.read
    have hlength := h.length
    rw [hbegins.2] at hlength
    have hbegun := length_begun (m := m) hbegins count (by omega)
    have hend : (copy (begun m s count) e.len).endOfStream = (count == 0) := rfl
    have hrest : (copy (begun m s count) e.len).rest = s.rest.drop count := rfl
    by_cases hnone : s.rest = []
    · -- the empty chunk
      obtain rfl : 0 = count := by simpa [hnone] using hcount
      refine ⟨?_, ?_, fun hne => ?_, fun _ => ?_⟩
      · rw [hrest]
        exact h.read
      · rw [sent_copy, hbegun, hend, hrest]
        simpa using hlength
      · exact absurd (by simp [hrest, hnone]) hne
      · simp [hrest, hnone]
    · have hdata := h.full hnone
      have hmore : 0 < s.rest.length := List.length_pos_iff.2 hnone
      have hadd := computeContentLength_add hdata (show 0 < count by omega) (show count ≤ size by omega)
      have hleft : (s.rest.drop count).length = s.rest.length - count := List.length_drop
      have hnow : file.length - (s.rest.length - count) = file.length - s.rest.length + count := by omega
      have hopen : (count == 0) = false := by simpa using (show count ≠ 0 by omega)
      refine ⟨?_, ?_, fun hne => ?_, fun hdone => ?_⟩
      · rw [hrest]
        omega
      · rw [sent_copy, hbegun, hend, hopen, hrest, hleft, hnow, hadd]
        simp only [Bool.false_eq_true, if_false] at hlength ⊢
        omega
      · -- the chunk was full
        have hne' := List.length_pos_iff.2 hne
        rw [hrest, hleft] at hne' ⊢
        obtain rfl : size = count := by omega
        rw [hnow, Nat.add_mod_right]
        exact hdata
      · rw [hend, hopen] at hdone
        cases hdone

/-- A body that is read with buffers of one size, of a stream that fills them. -/
theorem contentLength_run (m : Signer) (file : Octets) {len : Nat} (hlen : oneChunkedDataSize 0 < len)
    (es : List Reading) {t : State}
    (hes : Runs.Along (read m) (fun s e => Enabled s e ∧ Filled len s e) (State.init m file) es)
    (ht : Runs.exec (read m) (State.init m file) es = some t) (hend : t.endOfStream = true)
    (hpending : pending t = []) :
    t.sent.length = computeContentLengthForChunkedData (len - oneChunkedDataSize 0) file.length := by
  have hall : Runs.Throughout (read m) (Sized (len - oneChunkedDataSize 0) file) (State.init m file) es :=
    Runs.throughout_ok (fun s e h he s' hs' => sized_read (Nat.sub_pos_of_lt hlen) h
      (fun hbegins => he.2.1 ▸ he.2.2 hbegins) hs') (fun _ h => h) (sized_init m _ file) hes
  have hsized := Runs.throughout_last hall ht
  have hlength := hsized.length
  rw [hend, hpending, hsized.ended hend, List.append_nil] at hlength
  simpa using hlength

instance (len : Nat) (s : State) (e : Reading) : Decidable (Filled len s e) :=
  inferInstanceAs (Decidable (_ ∧ (_ → _)))

/-- Three bytes with room for two. -/
theorem contentLength_threeBytes : ∃ t, Runs.exec (read .zeros) (State.init .zeros [1, 2, 3])
      [⟨93, some 2⟩, ⟨93, some 1⟩, ⟨93, some 0⟩] = some t ∧
    t.sent.length = computeContentLengthForChunkedData (93 - oneChunkedDataSize 0) 3 :=
  ⟨_, rfl, contentLength_run .zeros [1, 2, 3] (by decide) [⟨93, some 2⟩, ⟨93, some 1⟩, ⟨93, some 0⟩]
    (by decide) rfl rfl rfl⟩

/-! ## Progress -/

/-- No chunk that is begun is so long that its size has a seventh digit. -/
def Short (s : State) (e : Reading) : Prop := Begins s → ∀ count ∈ e.given, count < 16 ^ 6

instance (s : State) (e : Reading) : Decidable (Short s e) := inferInstanceAs (Decidable (_ → _))

/-- The bytes that are written are at least the data and the headers that were counted. -/
structure Counted (file : Octets) (s : State) : Prop where
  read : s.rest.length ≤ file.length
  le : s.totalLengthOfChunkSignatureSent + (file.length - s.rest.length) ≤ (s.sent ++ pending s).length

theorem counted_read (h : Counted file s) (he : Enabled s e) (hs' : read m s e = some s') :
    Counted file s' ∧
      (s'.totalLengthOfChunkSignatureSent + (file.length - s'.rest.length) = (s'.sent ++ pending s').length ↔
        s.totalLengthOfChunkSignatureSent + (file.length - s.rest.length) = (s.sent ++ pending s).length ∧
          Short s e) := by
  obtain ⟨hnot, hkept⟩ | ⟨hbegins, hgiven, rfl⟩ | ⟨hbegins, count, hgiven, rfl⟩ := read_cases hs'
  · rw [and_iff_left (show Short s e from fun hbegins => absurd hbegins hnot)]
    obtain rfl | rfl := hkept
    · exact ⟨h, Iff.rfl⟩
    · rw [sent_copy]
      exact ⟨⟨h.read, by rw [sent_copy]; exact h.le⟩, Iff.rfl⟩
  · have hnone : Short s e := fun _ count hcount => by simp [hgiven] at hcount
    have hpending := pending_of_begins hbegins
    have hpending' : pending { s with chunkData := [], endOfStream := true } = [] := by simp [pending]
    rw [and_iff_left hnone, hpending, hpending']
    have hle := h.le
    rw [hpending] at hle
    exact ⟨⟨h.read, by rw [hpending']; exact hle⟩, Iff.rfl⟩
  · obtain ⟨-, hcount, -⟩ := he.2 hbegins count hgiven
    have hshort : Short s e ↔ (hex count).length = 6 := by
      rw [length_hex_iff]
      simp [Short, hbegins, hgiven]
    have hdigits := le_length_hex count
    have hbegun := length_begun (m := m) hbegins count hcount
    rw [oneChunkedDataSize_eq] at hbegun
    have htotal : (copy (begun m s count) e.len).totalLengthOfChunkSignatureSent =
        s.totalLengthOfChunkSignatureSent + 91 := by
      rw [← oneChunkedDataSize_zero]
      rfl
    have hleft : (copy (begun m s count) e.len).rest.length = s.rest.length - count := List.length_drop
    have hread := h.read
    have hle := h.le
    rw [hshort, sent_copy, hbegun, htotal, hleft]
    refine ⟨⟨by omega, ?_⟩, by omega⟩
    rw [sent_copy, hbegun, htotal, hleft]
    omega

/-- Where a chunk is read off, the bytes that were read are its data and the headers that the progress
    takes off, exactly if the size of no chunk had a seventh digit. -/
theorem chunkSignature_iff (m : Signer) (file : Octets) (es : List Reading) {t : State}
    (hes : Runs.Along (read m) Enabled (State.init m file) es)
    (ht : Runs.exec (read m) (State.init m file) es = some t) (hpending : pending t = []) :
    t.totalLengthOfChunkSignatureSent + (file.length - t.rest.length) = t.sent.length ↔
      Runs.Along (read m) Short (State.init m file) es := by
  have hstart : Counted file (State.init m file) := ⟨le_rfl, by simp [State.init]⟩
  obtain ⟨-, hiff⟩ := Runs.exec_iff_along_trap
    (G := fun s => s.totalLengthOfChunkSignatureSent + (file.length - s.rest.length) =
      (s.sent ++ pending s).length)
    (fun s e s' h he hs' => counted_read h he hs') hstart hes ht
  rw [and_iff_right (by simp [State.init, pending]), hpending, List.append_nil] at hiff
  exact hiff

theorem chunkSignature_threeBytes : ∃ t, Runs.exec (read .zeros) (State.init .zeros [1, 2, 3])
      [⟨93, some 2⟩] = some t ∧ t.totalLengthOfChunkSignatureSent + (3 - t.rest.length) = t.sent.length :=
  ⟨_, rfl, (chunkSignature_iff .zeros [1, 2, 3] [⟨93, some 2⟩] (by decide) rfl rfl).2 (by decide)⟩

end AWSS3ChunkedEncodingInputStream

end Shiftgram
