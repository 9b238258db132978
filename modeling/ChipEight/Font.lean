import ChipEight.Memory

namespace ChipEight

/-!
# The font

The built-in sprites of the sixteen hexadecimal digits.  Each is five bytes, one
per line, with the four columns of the digit in the high nibble.

* `Font.bytes` — all sprites, in the order of the digits;
* `Font.address` — where the sprite of a digit lies in the memory.
-/

namespace Font

/-- Where the font starts in the memory. -/
def start : Nat := 0x50

/-- The number of lines of a digit. -/
def height : Nat := 5

/-- The sprites of the digits `0` to `F`. -/
def bytes : Array Byte := #[
  0xF0, 0x90, 0x90, 0x90, 0xF0,
  0x20, 0x60, 0x20, 0x20, 0x70,
  0xF0, 0x10, 0xF0, 0x80, 0xF0,
  0xF0, 0x10, 0xF0, 0x10, 0xF0,
  0x90, 0x90, 0xF0, 0x10, 0x10,
  0xF0, 0x80, 0xF0, 0x10, 0xF0,
  0xF0, 0x80, 0xF0, 0x90, 0xF0,
  0xF0, 0x10, 0x20, 0x40, 0x40,
  0xF0, 0x90, 0xF0, 0x90, 0xF0,
  0xF0, 0x90, 0xF0, 0x10, 0xF0,
  0xF0, 0x90, 0xF0, 0x90, 0x90,
  0xE0, 0x90, 0xE0, 0x90, 0xE0,
  0xF0, 0x80, 0x80, 0x80, 0xF0,
  0xE0, 0x90, 0x90, 0x90, 0xE0,
  0xF0, 0x80, 0xF0, 0x80, 0xF0,
  0xF0, 0x80, 0xF0, 0x80, 0x80]

/-- The address of a digit's sprite. -/
def address (digit : Nibble) : Word := BitVec.ofNat 16 (start + height * digit.toNat)

/-- There are five bytes for each of the sixteen digits. -/
theorem size_bytes : bytes.size = height * 16 := rfl

end Font

/-- The memory before a program is loaded: the font, and zero elsewhere. -/
def Memory.initial : Memory := Memory.blank.overlay Font.start Font.bytes

end ChipEight
