import BoostGateway.Bytes

/-!
# Compressed packets

`decompress_body` and `Session::do_read_body`. The size of the buffer for a body is chosen by the
peer, and a body that cannot be decompressed is handed on as it came. `decompression_strict_iff`
says which packets are handled within the limit and decompressed or refused.
-/

namespace BoostGateway.Gateway

structure DecodedPacket where
  flags : UInt8
  body : Bytes

def fixedMetadataSize : Nat := 16

/-- `packet::decode_payload`, `none` if it throws. -/
def decodePayload (payload : Bytes) : Option DecodedPacket :=
  if payload.length < fixedMetadataSize then none
  else some { flags := payload.getD 15 0, body := payload.drop fixedMetadataSize }

def DecodedPacket.compressed (packet : DecodedPacket) : Bool := packet.flags &&& 1 ≠ 0

def origLen (body : Bytes) : Nat :=
  (body.take 4).foldr (fun b rest => b.toNat + 256 * rest) 0

inductive BodyRead where
  | closed
  | handled (buffer : Nat) (packet : DecodedPacket)

/-- Whether zlib is linked, what blocks decompress to, what `uncompress` writes if it returns
`Z_OK`, and how long a string can be. -/
structure Zlib where
  available : Bool
  inflate : Bytes → Option Bytes
  uncompress : (destLen : Nat) → (source : Bytes) → Option Bytes
  memory : Nat

/-- A result that does not fit is an error, but for a single byte into an empty buffer. -/
structure Zlib.Lawful (zlib : Zlib) : Prop where
  invalid : ∀ {destLen source}, zlib.inflate source = none → zlib.uncompress destLen source = none
  fits : ∀ {destLen source block}, zlib.inflate source = some block → block.length ≤ destLen →
    zlib.uncompress destLen source = some block
  short : ∀ {destLen source block written}, zlib.inflate source = some block →
    destLen < block.length → zlib.uncompress destLen source = some written →
      block.length = 1 ∧ written = []

variable (zlib : Zlib)

def decompressBody (body : Bytes) : Option (Nat × Bytes) :=
  if body.length < 4 then some (0, body)
  else if zlib.memory < origLen body then none
  else some (origLen body, (zlib.uncompress (origLen body) (body.drop 4)).getD body)

/-- `Session::do_read_body`, once the payload has been read. -/
def doReadBody (payload : Bytes) : BodyRead :=
  match decodePayload payload with
  | none => .closed
  | some packet =>
    if packet.compressed then
      if zlib.available then
        match decompressBody zlib packet.body with
        | none => .closed
        | some (buffer, body) => .handled buffer { flags := packet.flags &&& 254, body }
      else .closed
    else .handled 0 packet

/-- The session is closed, or the handler gets the block from a buffer within the limit. -/
def Strict (maxPacketSize : Nat) (packet : DecodedPacket) : BodyRead → Prop
  | .closed => True
  | .handled buffer message => buffer ≤ maxPacketSize ∧ 4 ≤ packet.body.length ∧
      zlib.inflate (packet.body.drop 4) = some message.body

variable {zlib} {payload : Bytes} {packet : DecodedPacket}

/-- The handler gets the block exactly if it fits the length, or is the body as it came. -/
theorem Zlib.Lawful.inflate_eq_iff (hlaws : zlib.Lawful) {body : Bytes} (hfour : 4 ≤ body.length) :
    zlib.inflate (body.drop 4) =
        some ((zlib.uncompress (origLen body) (body.drop 4)).getD body) ↔
      ∃ block ∈ zlib.inflate (body.drop 4), block.length ≤ origLen body ∨ block = body := by
  cases hblock : zlib.inflate (body.drop 4) with
  | none => simp
  | some block =>
    by_cases hfits : block.length ≤ origLen body
    · simp [hlaws.fits hblock hfits, hfits]
    · cases hwritten : zlib.uncompress (origLen body) (body.drop 4) with
      | none => simp [hfits]
      | some written =>
        obtain ⟨hone, rfl⟩ := hlaws.short hblock (Nat.lt_of_not_le hfits) hwritten
        have hne : block ≠ body := fun h => by rw [h] at hone; omega
        simpa [hfits, hne] using List.ne_nil_of_length_eq_add_one hone

/-- A compressed packet is refused, or decompressed within the limit, exactly if zlib is missing,
or the announced length cannot be allocated, or it is within the limit and enough for the block. A
body that is itself what its block decompresses to needs no buffer. -/
theorem decompression_strict_iff (hlaws : zlib.Lawful) {maxPacketSize : Nat}
    (hdecode : decodePayload payload = some packet) (hcompressed : packet.compressed = true) :
    Strict zlib maxPacketSize packet (doReadBody zlib payload) ↔
      zlib.available = false ∨ 4 ≤ packet.body.length ∧
        (zlib.memory < origLen packet.body ∨ origLen packet.body ≤ maxPacketSize ∧
          ∃ block ∈ zlib.inflate (packet.body.drop 4),
            block.length ≤ origLen packet.body ∨ block = packet.body) := by
  simp only [doReadBody, hdecode, hcompressed, if_true]
  cases zlib.available with
  | false => exact iff_of_true trivial (.inl rfl)
  | true =>
    simp only [if_true, decompressBody, Bool.true_eq_false, false_or]
    split_ifs with hshort hmemory
    · exact iff_of_false (fun h => absurd h.2.1 (by omega)) fun h => absurd h.1 (by omega)
    · exact iff_of_true trivial ⟨Nat.le_of_not_lt hshort, .inl hmemory⟩
    · simp only [Strict, Nat.le_of_not_lt hshort, hmemory, true_and, false_or, and_congr_right_iff]
      exact fun _ => hlaws.inflate_eq_iff (Nat.le_of_not_lt hshort)

def fiveBlock : Bytes := [0x78, 0x01, 0x63, 0x05, 0x00, 0x00, 0x06, 0x00, 0x06]

/-- A codec that knows this block only. -/
def oneBlock : Zlib where
  available := true
  inflate source := if source = fiveBlock then some [5] else none
  uncompress destLen source := if source = fiveBlock ∧ 1 ≤ destLen then some [5] else none
  memory := 2 ^ 32

theorem oneBlock_lawful : oneBlock.Lawful where
  invalid h := by simp_all [oneBlock]
  fits h hle := by
    obtain ⟨hsource, hblock⟩ := Option.ite_none_right_eq_some.mp h
    cases hblock
    exact if_pos ⟨hsource, hle⟩
  short h hlt hwritten := by
    obtain ⟨-, hblock⟩ := Option.ite_none_right_eq_some.mp h
    obtain ⟨⟨-, hle⟩, -⟩ := Option.ite_none_right_eq_some.mp hwritten
    cases hblock
    exact absurd hle (Nat.not_le_of_lt hlt)

/-- The block comes with its length. -/
theorem decompression_strict_fiveBlock :
    decodePayload (List.replicate 15 0 ++ 1 :: [1, 0, 0, 0] ++ fiveBlock) =
      some ⟨1, [1, 0, 0, 0] ++ fiveBlock⟩ ∧
    Strict oneBlock 1048576 ⟨1, [1, 0, 0, 0] ++ fiveBlock⟩
      (doReadBody oneBlock (List.replicate 15 0 ++ 1 :: [1, 0, 0, 0] ++ fiveBlock)) :=
  ⟨rfl, (decompression_strict_iff oneBlock_lawful rfl rfl).mpr
    (.inr ⟨by decide, .inr ⟨by decide, [5], rfl, .inl (by decide)⟩⟩)⟩

/-- A packet of 21 bytes takes four gigabytes, and its bytes are handled as they came. -/
theorem decompression_unbounded :
    decodePayload (List.replicate 15 0 ++ [1, 255, 255, 255, 255, 8]) =
      some ⟨1, [255, 255, 255, 255, 8]⟩ ∧
    ¬ Strict oneBlock 1048576 ⟨1, [255, 255, 255, 255, 8]⟩
      (doReadBody oneBlock (List.replicate 15 0 ++ [1, 255, 255, 255, 255, 8])) := by
  refine ⟨rfl, ?_⟩
  rintro ⟨-, -, hinflate⟩
  cases hinflate

end BoostGateway.Gateway
