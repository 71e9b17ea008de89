import Argand.Picture
import Argand.Text.Quoted

/-!
# Image formats

The format of a picture file is told by the extension of its name (`ImageFormat.ofPath?`). Not every
format can hold every picture : some have no colors, and icons are small (`ImageFormat.check`).
`Picture.toPixmap` writes the plainest of the formats that hold any picture.
-/

namespace Argand

/-- The formats of picture files. -/
inductive ImageFormat where
  | bilevel | bitmap | gif | graymap | icon | jpeg | anymap | png | pixmap | tiff
deriving Repr, DecidableEq

/-- Why a picture cannot be written under a name. -/
inductive FormatError where
  /-- The format of this name holds no colors. -/
  | colorless
  /-- A side of the picture is too long for an icon. -/
  | iconSides
  /-- There is no format with this extension. -/
  | unknown (extension : String)
deriving Repr, DecidableEq

/-- The wording of an error. -/
def FormatError.message : FormatError → String
  | colorless => "Color type can not be represented in the chosen format"
  | iconSides => "Invalid ICO dimensions (width and height must be between 1 and 256)"
  | unknown extension =>
    "Unsupported image format image/" ++ String.ofList (quoted extension.toList)

namespace ImageFormat

/-- The extension of a file's name : what stands behind its last point, unless the name begins with
that point. Large letters become small. -/
def extension (path : String) : String :=
  let parts := (path.splitOn "/").filter fun part => part ≠ "" && part ≠ "."
  let name := (parts.getLast?.getD "").toList
  let reversed := name.reverse
  let behind := reversed.takeWhile (· ≠ '.')
  let before := (reversed.drop behind.length).tail
  if before.isEmpty || name = ['.', '.'] then ""
  else (String.ofList behind.reverse).map Char.toLower

/-- The format with an extension. -/
def ofExtension? : String → Option ImageFormat
  | "bmp" => some bitmap
  | "gif" => some gif
  | "ico" => some icon
  | "jpg" | "jpeg" => some jpeg
  | "pam" => some anymap
  | "pbm" => some bilevel
  | "pgm" => some graymap
  | "png" => some png
  | "ppm" => some pixmap
  | "tif" | "tiff" => some tiff
  | _ => none

/-- The format of a file. -/
def ofPath? (path : String) : Option ImageFormat :=
  ofExtension? (extension path)

/-- The longest side of an icon. -/
def longestIconSide : Nat := 256

/-- Checks whether a format can hold a picture. -/
def check (p : Picture) : ImageFormat → Except FormatError Unit
  | bilevel | graymap => .error .colorless
  | icon =>
    if 0 < min p.width p.height ∧ max p.width p.height ≤ longestIconSide then .ok ()
    else .error .iconSides
  | bitmap | gif | jpeg | anymap | png | pixmap | tiff => .ok ()

end ImageFormat

namespace Picture

/-- The format in which a picture is written to a file, if it can be. -/
def formatFor (p : Picture) (path : String) : Except FormatError ImageFormat :=
  match ImageFormat.ofPath? path with
  | none => .error (.unknown (ImageFormat.extension path))
  | some format => (format.check p).map fun _ => format

/-- The bytes of a pixmap file : a header with the sides and the greatest level, then the channels
of all pixels. -/
def toPixmap (p : Picture) : ByteArray :=
  let header := "P6\n" ++ toString p.width ++ " " ++ toString p.height ++ "\n255\n"
  p.pixels.foldl (fun bytes c => ((bytes.push c.red).push c.green).push c.blue) header.toUTF8

end Picture

end Argand
