import IsoTp.Time

/-!
The separation time of flow control, the least gap between consecutive frames, as a byte.

The byte writes whole milliseconds up to 127 and tenths of a millisecond up to nine; the other
values are reserved. Writing a gap rounds it up to the next one that has a byte.
-/

namespace IsoTp.SeparationTime

/-- The longest gap that has a byte, and the one taken for a reserved byte. -/
def longest : Duration := .ofMillis 127

/-- The gap that a byte stands for; reserved bytes stand for none. -/
def ofByte? (b : UInt8) : Option Duration :=
  if b ≤ 0x7F then some (.ofMillis b.toNat)
  else if 0xF1 ≤ b ∧ b ≤ 0xF9 then some (.ofMicros (100 * (b.toNat - 0xF0)))
  else none

/-- The gap to keep towards a peer that sent this byte. -/
def ofWire (b : UInt8) : Duration := (ofByte? b).getD longest

/-- The byte of the least gap that is not shorter, reckoned in whole microseconds; gaps beyond
the longest have its byte. -/
def toByte (d : Duration) : UInt8 :=
  if d.micros = 0 then 0
  else if d.micros ≤ 900 then .ofNat (0xF0 + (d.micros + 99) / 100)
  else .ofNat (min ((d.micros + 999) / 1000) 0x7F)

end IsoTp.SeparationTime
