import ItalyTrip.Handler
import Mathlib.Data.Rat.Floor

namespace ItalyTrip

open Calls

namespace Images

def thumbMaxEdge : Int := 400

def thumbQuality : Nat := 80

def maxPixels : Int := 50000000

structure Thumb where
  width : Int
  height : Int
  jpeg : Bytes
  thumbWidth : Int
  thumbHeight : Int

/-- Half away from zero, on the exact quotient. -/
def mathRound (x : ℚ) : Int := if 0 ≤ x then ⌊x + 1 / 2⌋ else ⌈x - 1 / 2⌉

def scaled (scale : ℚ) (v : Int) : Int := max 1 (mathRound (v * scale))

def fitWithin (width height maxEdge : Int) : Int × Int :=
  let longEdge := max width height
  if longEdge ≤ maxEdge then (width, height)
  else
    let scale : ℚ := maxEdge / longEdge
    (scaled scale width, scaled scale height)

def make (packages : Packages) (data : Bytes) : Except String Thumb := do
  if data.length = 0 then throw "image is empty"
  let (cfgWidth, cfgHeight) ← (packages.decodeConfig data).mapError ("not a decodable JPEG: " ++ ·)
  if cfgWidth ≤ 0 ∨ cfgHeight ≤ 0 then
    throw s!"JPEG declares empty dimensions {cfgWidth}x{cfgHeight}"
  if cfgWidth * cfgHeight > maxPixels then
    throw s!"JPEG is {cfgWidth}x{cfgHeight}, over the {maxPixels} pixel limit"
  let src ← (packages.decode data).mapError ("decode JPEG: " ++ ·)
  if src.width ≤ 0 ∨ src.height ≤ 0 then throw "decoded image is empty"
  let (thumbWidth, thumbHeight) := fitWithin src.width src.height thumbMaxEdge
  let dst := packages.catmullRom src thumbWidth thumbHeight
  let jpeg ← (packages.encode dst thumbQuality).mapError ("encode thumbnail: " ++ ·)
  return ⟨src.width, src.height, jpeg, thumbWidth, thumbHeight⟩

/-- The dimensions are those of the decoded bitmap. -/
theorem make_ok {packages : Packages} {data : Bytes} {thumb : Thumb}
    (h : make packages data = .ok thumb) : ∃ bitmap, packages.decode data = .ok bitmap ∧
      thumb.width = bitmap.width ∧ thumb.height = bitmap.height := by
  unfold make at h
  split at h
  · cases h
  obtain ⟨⟨cfgWidth, cfgHeight⟩, _, h⟩ := except_bind_ok h
  dsimp only at h
  split at h
  · cases h
  split at h
  · cases h
  obtain ⟨src, decoded, h⟩ := except_bind_ok h
  split at h
  · cases h
  obtain ⟨jpeg, _, h⟩ := except_bind_ok h
  cases h
  exact ⟨src, mapError_ok decoded, rfl, rfl⟩

end Images

end ItalyTrip
