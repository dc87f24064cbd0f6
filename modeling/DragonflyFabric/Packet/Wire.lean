import DragonflyFabric.Fault

/-!
Packets as bytes: the fields one after another, each with its lowest byte first. Sixty-eight bytes are a
packet, and any bytes behind them are not looked at.
-/

namespace DragonflyFabric.Packet

/-- A number as `count` bytes, lowest first. -/
def bytesOf : Nat → Nat → List UInt8
  | 0, _ => []
  | count + 1, n => UInt8.ofNat n :: bytesOf count (n / 256)

/-- The number that bytes stand for, lowest first. -/
def numberOf : List UInt8 → Nat
  | [] => 0
  | b :: rest => b.toNat + 256 * numberOf rest

/-- The fields of a packet in their order, each with its width in bytes. -/
def fields (k : Packet) : List (Nat × Nat) :=
  [(8, k.request.source), (8, k.request.destination), (8, k.request.network), (8, k.request.bits),
    (8, k.channel), (4, k.origin.toNat), (4, k.dest.group.toNat), (4, k.dest.target.toNat),
    (4, k.dest.alternate.toNat), (4, k.dest.router.toNat), (4, k.dest.host.toNat),
    (2, k.slot.toNat), (2, k.otherSlot.toNat)]

def encode (k : Packet) : List UInt8 := k.fields.flatMap fun (width, n) => bytesOf width n

/-- The number of bytes of a packet. -/
def wireSize : Nat := 68

/-- The number in `width` bytes from an offset on. -/
def fieldAt (bytes : List UInt8) (offset width : Nat) : Nat :=
  numberOf ((bytes.drop offset).take width)

def decode (bytes : List UInt8) : Except Fault Packet :=
  if bytes.length < wireSize then .error .notDecoded
  else
    let word (offset : Nat) : UInt32 := UInt32.ofNat (fieldAt bytes offset 4)
    .ok {
      request :=
        { source := fieldAt bytes 0 8
          destination := fieldAt bytes 8 8
          network := fieldAt bytes 16 8
          bits := fieldAt bytes 24 8 }
      channel := fieldAt bytes 32 8
      origin := word 40
      dest := ⟨word 44, word 48, word 52, word 56, word 60⟩
      slot := UInt16.ofNat (fieldAt bytes 64 2)
      otherSlot := UInt16.ofNat (fieldAt bytes 66 2) }

end DragonflyFabric.Packet
