/-! The bitmap that custom items draw into. Whatever falls outside it is clipped. -/

namespace ReportEngine

structure Rgba where
  red : UInt8
  green : UInt8
  blue : UInt8
  alpha : UInt8
deriving DecidableEq, Repr, Inhabited

namespace Rgba

def transparent : Rgba := ⟨0, 0, 0, 0⟩

def black : Rgba := ⟨0, 0, 0, 255⟩

end Rgba

/-- Pixels row by row, from the top left. -/
structure Surface where
  width : Nat
  height : Nat
  pixels : Array Rgba
deriving DecidableEq, Repr

namespace Surface

def transparent (width height : Nat) : Surface :=
  ⟨width, height, Array.replicate (width * height) .transparent⟩

def offset? (surface : Surface) (x y : Nat) : Option Nat :=
  if x < surface.width ∧ y < surface.height then some (y * surface.width + x) else none

def get? (surface : Surface) (x y : Nat) : Option Rgba :=
  (surface.offset? x y).bind fun offset => surface.pixels[offset]?

def set (surface : Surface) (x y : Nat) (color : Rgba) : Surface :=
  match surface.offset? x y with
  | some offset => { surface with pixels := surface.pixels.setIfInBounds offset color }
  | none => surface

def fill (surface : Surface) (color : Rgba) : Surface :=
  { surface with pixels := surface.pixels.map fun _ => color }

/-- Where a stretch of pixels ends, clipped at a limit. Coordinates are 32-bit words: the sum of two
stops at the last one. -/
def stretchEnd (start length limit : Nat) : Nat := min (min (start + length) 0xFFFFFFFF) limit

/-- Fills the pixels from `x` up to `x + width` and from `y` up to `y + height`. -/
def fillRect (surface : Surface) (x y width height : Nat) (color : Rgba) : Surface :=
  let columns := List.range' x (stretchEnd x width surface.width - x)
  let rows := List.range' y (stretchEnd y height surface.height - y)
  rows.foldl (fun surface row => columns.foldl (fun surface column => surface.set column row color) surface)
    surface

def painted (surface : Surface) : Nat := surface.pixels.countP fun pixel => pixel.alpha != 0

def row (surface : Surface) (y : Nat) : List Rgba :=
  (List.range surface.width).filterMap fun x => surface.get? x y

def rows (surface : Surface) : List (List Rgba) := (List.range surface.height).map surface.row

end Surface

end ReportEngine
