import Mathlib.Algebra.Group.Nat.Defs
import Shiftgram.Percent

/- Bodies in signed chunks. A chunk is written as

     <size in hex>;chunk-signature=<signature>\r\n<data>\r\n

   and an empty one ends the body. A signature is made from the one before it and the data. The
   receiver reads byte by byte, checks every signature and keeps the data of whole chunks.

   1. The size is read back (`ofHex_hex`) and has six digits up to 16⁶ - 1 (`length_hex_iff`).
   2. A chunk with the right signature is taken (`receive_chunk`), and nothing after an empty one.
   3. What begins something that is taken is taken so far (`receive_prefix`), and is not the end of a
      body unless nothing follows (`not_done_of_append`). -/
namespace SignedChunks

abbrev Octets := List UInt8

def text (s : String) : Octets := s.toList.map Char.toUInt8

def semicolon : UInt8 := 59
def cr : UInt8 := 13
def lf : UInt8 := 10

def crlf : Octets := [cr, lf]

/-- At least six digits. -/
def hex (size : Nat) : Octets := ((Nat.toDigits 16 size).leftpad 6 '0').map Char.toUInt8

def name : Octets := text ";chunk-signature="

def header (size : Nat) (signature : Octets) : Octets := hex size ++ name ++ signature ++ crlf

def chunk (signature data : Octets) : Octets := header data.length signature ++ data ++ crlf

/-! ## Sizes -/

def ofHex (digits : Octets) : Option Nat :=
  digits.foldlM (fun n b => (Percent.hexValue b).map (16 * n + ·)) 0

theorem hexValue_digitChar : ∀ n, n < 16 → Percent.hexValue n.digitChar.toUInt8 = some n := by decide

theorem ofHex_append (digits digits' : Octets) : ofHex (digits ++ digits') =
    (ofHex digits).bind fun n => digits'.foldlM (fun n b => (Percent.hexValue b).map (16 * n + ·)) n := by
  rw [ofHex, List.foldlM_append]
  rfl

theorem ofHex_toDigits (n : Nat) : ofHex ((Nat.toDigits 16 n).map Char.toUInt8) = some n := by
  induction n using Nat.strongRecOn with
  | ind n ih =>
    rw [Nat.toDigits_eq_if (by decide)]
    split
    · next h => simp [ofHex, hexValue_digitChar n h]
    · next h =>
      have hlow := Nat.mod_lt n (show 0 < 16 by decide)
      rw [List.map_append, ofHex_append, ih (n / 16) (by omega)]
      simp [hexValue_digitChar _ hlow]
      omega

/-- Zeros in front change nothing. -/
theorem ofHex_zeros (k : Nat) (digits : Octets) : ofHex (List.replicate k 48 ++ digits) = ofHex digits := by
  induction k with
  | zero => rfl
  | succ k ih =>
    rw [List.replicate_succ, List.cons_append]
    exact ih

theorem hex_eq (size : Nat) : hex size =
    List.replicate (6 - (Nat.toDigits 16 size).length) 48 ++ (Nat.toDigits 16 size).map Char.toUInt8 := by
  simp only [hex, List.leftpad, List.map_append, List.map_replicate]
  rfl

theorem ofHex_hex (size : Nat) : ofHex (hex size) = some size := by
  rw [hex_eq, ofHex_zeros, ofHex_toDigits]

theorem length_hex (size : Nat) : (hex size).length = max 6 (Nat.toDigits 16 size).length := by
  rw [hex_eq, List.length_append, List.length_replicate, List.length_map]
  omega

theorem length_hex_iff (size : Nat) : (hex size).length = 6 ↔ size < 16 ^ 6 := by
  rw [← Nat.length_toDigits_le_iff (by decide) (by decide), length_hex]
  omega

theorem le_length_hex (size : Nat) : 6 ≤ (hex size).length := by
  rw [length_hex]
  omega

theorem mem_toDigits {b : UInt8} {n : Nat} (h : b ∈ (Nat.toDigits 16 n).map Char.toUInt8) :
    Percent.hexValue b ≠ none := by
  induction n using Nat.strongRecOn with
  | ind n ih =>
    rw [Nat.toDigits_eq_if (by decide)] at h
    split at h
    · next hn =>
      rw [List.map_singleton, List.mem_singleton] at h
      simp [h, hexValue_digitChar n hn]
    · next hn =>
      rw [List.map_append, List.mem_append] at h
      obtain h | h := h
      · exact ih (n / 16) (by omega) h
      · rw [List.map_singleton, List.mem_singleton] at h
        simp [h, hexValue_digitChar _ (Nat.mod_lt n (show 0 < 16 by decide))]

/-- Only digits stand in a size. -/
theorem mem_hex {b : UInt8} {size : Nat} (h : b ∈ hex size) : Percent.hexValue b ≠ none := by
  rw [hex_eq, List.mem_append] at h
  obtain h | h := h
  · rw [List.eq_of_mem_replicate h]
    decide
  · exact mem_toDigits h

theorem semicolon_not_mem_hex (size : Nat) : semicolon ∉ hex size := fun h => mem_hex h (by decide)

theorem lf_not_mem_hex (size : Nat) : lf ∉ hex size := fun h => mem_hex h (by decide)

theorem length_chunk (signature data : Octets) : (chunk signature data).length =
    (hex data.length).length + name.length + signature.length + data.length + 2 * crlf.length := by
  simp only [chunk, header, List.length_append]
  omega

/-! ## The receiver -/

inductive Phase
  /-- The header so far. -/
  | header (line : Octets)
  /-- How many bytes are missing up to the end of the line after the data, and the ones that came. -/
  | body (missing : Nat) (bytes signature : Octets)
  /-- The empty chunk has come. -/
  | done
  deriving DecidableEq

structure Receiver where
  /-- The signature before. -/
  prior : Octets
  /-- The data of the chunks that were taken. -/
  payload : Octets
  phase : Phase
  deriving DecidableEq

def Receiver.init (prior : Octets) : Receiver := ⟨prior, [], .header []⟩

/-- Size and signature of a header, up to its line feed. -/
def parseHeader (line : Octets) : Option (Nat × Octets) :=
  let rest := line.dropWhile (· ≠ semicolon)
  let signature := (rest.drop name.length).dropLast
  if rest = name ++ signature ++ [cr] then
    (ofHex (line.takeWhile (· ≠ semicolon))).map (·, signature)
  else none

variable (sign : Octets → Octets → Octets)

def close (r : Receiver) (bytes signature : Octets) : Option Receiver :=
  let data := bytes.dropLast.dropLast
  if bytes = data ++ crlf ∧ sign r.prior data = signature then
    some ⟨signature, r.payload ++ data, if data = [] then .done else .header []⟩
  else none

def receiveByte (r : Receiver) (b : UInt8) : Option Receiver :=
  match r.phase with
  | .done => none
  | .header line =>
    if b = lf then
      (parseHeader line).map fun h => { r with phase := .body (h.1 + crlf.length) [] h.2 }
    else some { r with phase := .header (line ++ [b]) }
  | .body missing bytes signature =>
    if missing ≤ 1 then close sign r (bytes ++ [b]) signature
    else some { r with phase := .body (missing - 1) (bytes ++ [b]) signature }

def receive (r : Receiver) (bs : Octets) : Option Receiver := bs.foldlM (receiveByte sign) r

variable {sign} {r t : Receiver}

@[simp] theorem receive_nil : receive sign r [] = some r := rfl

@[simp] theorem receive_cons (b : UInt8) (bs : Octets) :
    receive sign r (b :: bs) = (receiveByte sign r b).bind fun u => receive sign u bs := rfl

theorem receive_append (bs bs' : Octets) :
    receive sign r (bs ++ bs') = (receive sign r bs).bind fun u => receive sign u bs' := by
  rw [receive, List.foldlM_append]
  rfl

/-! ## What is taken -/

theorem parseHeader_of {line digits signature : Octets}
    (htake : line.takeWhile (· ≠ semicolon) = digits)
    (hdrop : line.dropWhile (· ≠ semicolon) = name ++ signature ++ [cr]) :
    parseHeader line = (ofHex digits).map (·, signature) := by
  have hsignature : ((name ++ signature ++ [cr]).drop name.length).dropLast = signature := by
    rw [List.append_assoc, List.drop_left, List.dropLast_concat]
  simp only [parseHeader, htake, hdrop, hsignature, if_true]

theorem parseHeader_header (size : Nat) (signature : Octets) :
    parseHeader (hex size ++ name ++ signature ++ [cr]) = some (size, signature) := by
  have hall : ∀ b ∈ hex size, decide (b ≠ semicolon) = true := by
    intro b hb
    simpa using fun heq : b = semicolon => semicolon_not_mem_hex size (heq ▸ hb)
  obtain ⟨tail, hname⟩ : ∃ tail, name = semicolon :: tail := ⟨_, rfl⟩
  have hline : hex size ++ name ++ signature ++ [cr] = hex size ++ (name ++ signature ++ [cr]) := by
    simp only [List.append_assoc]
  rw [hline, parseHeader_of, ofHex_hex]
  · rfl
  · rw [List.takeWhile_append_of_pos hall, hname]
    simp
  · rw [List.dropWhile_append_of_pos hall, hname]
    simp

/-- A header is kept up to its line feed. -/
theorem receive_line {line : Octets} (hphase : r.phase = .header line) {bs : Octets} (hbs : lf ∉ bs) :
    receive sign r bs = some { r with phase := .header (line ++ bs) } := by
  induction bs generalizing r line with
  | nil =>
    rw [receive_nil, List.append_nil, ← hphase]
  | cons b bs ih =>
    simp only [List.mem_cons, not_or] at hbs
    have hstep : receiveByte sign r b = some { r with phase := .header (line ++ [b]) } := by
      simp only [receiveByte, hphase, if_neg (Ne.symm hbs.1)]
    rw [receive_cons, hstep, Option.bind_some, ih rfl hbs.2, List.append_assoc]
    rfl

theorem receive_header (hphase : r.phase = .header []) (size : Nat) {signature : Octets}
    (hsignature : lf ∉ signature) : receive sign r (header size signature) =
      some { r with phase := .body (size + crlf.length) [] signature } := by
  have hline : lf ∉ hex size ++ name ++ signature ++ [cr] := by
    simp only [List.mem_append, not_or]
    exact ⟨⟨⟨lf_not_mem_hex size, by decide⟩, hsignature⟩, by decide⟩
  have hsplit : header size signature = (hex size ++ name ++ signature ++ [cr]) ++ [lf] := by
    simp [header, crlf]
  rw [hsplit, receive_append, receive_line hphase hline, Option.bind_some, receive_cons]
  simp only [receiveByte, if_true, List.nil_append, parseHeader_header, Option.map_some, Option.bind_some,
    receive_nil]

/-- All that is missing of a chunk comes. -/
theorem receive_body {bytes signature bs : Octets}
    (hphase : r.phase = .body bs.length bytes signature) (hbs : bs ≠ []) :
    receive sign r bs = close sign r (bytes ++ bs) signature := by
  induction bs generalizing r bytes with
  | nil => exact absurd rfl hbs
  | cons b bs ih =>
    rw [receive_cons]
    cases bs with
    | nil =>
      simp only [receiveByte, hphase, List.length_singleton, le_refl, if_true]
      cases close sign r (bytes ++ [b]) signature <;> rfl
    | cons c bs =>
      have hstep : receiveByte sign r b =
          some { r with phase := .body (c :: bs).length (bytes ++ [b]) signature } := by
        simp only [receiveByte, hphase, List.length_cons]
        rw [if_neg (by omega)]
        rfl
      rw [hstep, Option.bind_some, ih rfl (List.cons_ne_nil _ _), List.append_assoc]
      rfl

/-- A chunk with the signature that its data has after the one before. -/
theorem receive_chunk (hphase : r.phase = .header []) (data : Octets)
    (hsignature : lf ∉ sign r.prior data) :
    receive sign r (chunk (sign r.prior data) data) =
      some ⟨sign r.prior data, r.payload ++ data, if data = [] then .done else .header []⟩ := by
  have hclose : ∀ u : Receiver, u.prior = r.prior → u.payload = r.payload →
      close sign u (data ++ crlf) (sign r.prior data) =
        some ⟨sign r.prior data, r.payload ++ data, if data = [] then .done else .header []⟩ := by
    intro u hprior hpayload
    have hdata : (data ++ crlf).dropLast.dropLast = data := by
      rw [show data ++ crlf = (data ++ [cr]) ++ [lf] by simp [crlf], List.dropLast_concat,
        List.dropLast_concat]
    simp only [close, hdata, hprior, hpayload, true_and, if_true]
  have hbody : ({ r with phase := .body (data.length + crlf.length) [] (sign r.prior data) } : Receiver).phase =
      .body (data ++ crlf).length [] (sign r.prior data) := by rw [List.length_append]
  rw [chunk, List.append_assoc, receive_append, receive_header hphase data.length hsignature, Option.bind_some,
    receive_body hbody (by simp [crlf]), List.nil_append]
  exact hclose _ rfl rfl

/-! ## What begins a body -/

theorem receive_prefix {bs bs' : Octets} (h : receive sign r (bs ++ bs') = some t) :
    ∃ u, receive sign r bs = some u ∧ receive sign u bs' = some t := by
  rw [receive_append] at h
  exact Option.bind_eq_some_iff.1 h

/-- Nothing is taken after the end of a body. -/
theorem not_done_of_append {bs : Octets} (hbs : bs ≠ []) (h : receive sign r bs = some t) :
    r.phase ≠ .done := by
  intro hdone
  cases bs with
  | nil => exact hbs rfl
  | cons b bs =>
    rw [receive_cons, receiveByte, hdone] at h
    cases h

theorem payload_receiveByte {b : UInt8} (h : receiveByte sign r b = some t) : r.payload <+: t.payload := by
  unfold receiveByte at h
  split at h
  · cases h
  · split at h
    · obtain ⟨-, -, rfl⟩ := Option.map_eq_some_iff.1 h
      exact List.prefix_rfl
    · exact Option.some.inj h ▸ List.prefix_rfl
  · split at h
    · simp only [close] at h
      split at h
      · exact Option.some.inj h ▸ List.prefix_append _ _
      · cases h
    · exact Option.some.inj h ▸ List.prefix_rfl

/-- What was taken is not given back. -/
theorem payload_receive {bs : Octets} (h : receive sign r bs = some t) : r.payload <+: t.payload := by
  induction bs generalizing r with
  | nil => exact Option.some.inj h ▸ List.prefix_rfl
  | cons b bs ih =>
    obtain ⟨u, hu, ht⟩ := Option.bind_eq_some_iff.1 (receive_cons b bs ▸ h)
    exact (payload_receiveByte hu).trans (ih ht)

end SignedChunks
