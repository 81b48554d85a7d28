import RobotConsole.Measure.Sample
import RobotConsole.Measure.Sha256

/-!
# Fingerprints

The fingerprint of a sample is the digest of its encoding. The encoding rounds doubles to six
digits, writes dictionaries in the order of the fingerprints of their keys and sets in the order of
the fingerprints of their items, so that order does not matter where it carries no meaning. What
lies deeper than eight levels down is left out, and so is the middle of a list of more than two
thousand items. The bytes that stand for what is left out are not settled here (`Marks`).
-/

namespace RobotConsole.Measure

/-- Samples are encoded at depths from zero to eight, which are so many levels. -/
def maxLevels : Nat := 9

/-- Lists are encoded in full up to this many items. -/
def maxItems : Nat := 2000

/-- Of a longer list so many items are encoded at either end. -/
def endItems : Nat := 1000

/-- The bytes that stand for what is not encoded: for a sample that lies too deep, and for the
items that are left out of a list, however many they are. -/
structure Marks where
  cap : List UInt8
  gap : Nat → List UInt8

/-- The encodings of the items of a list, one after another. Of a long list those in the middle are
left out. -/
def Marks.join (marks : Marks) (parts : List (List UInt8)) : List UInt8 :=
  if parts.length ≤ maxItems then parts.flatten
  else
    (parts.take endItems).flatten ++ marks.gap (parts.length - maxItems) ++
      (parts.drop (parts.length - endItems)).flatten

/-- The bytes of a text. -/
def utf8 (s : String) : List UInt8 :=
  s.toUTF8.toList

/-- A double as fingerprints see it. -/
def roundedReal (x : Float) : Float :=
  Decimal.roundToDigits 6 x

/-- The text of a shape: a comma follows a single number. -/
def shapeText : List Nat → String
  | [n] => s!"({n},)"
  | shape => "(" ++ String.intercalate ", " (shape.map toString) ++ ")"

/-- Entries in the order of their keys. -/
def inOrder {α : Type} (entries : List (String × α)) : List α :=
  (entries.mergeSort fun a b => decide (a.1 ≤ b.1)).map (·.2)

mutual

/-- The encoding of a sample with the given number of levels left. -/
def encode (marks : Marks) : Nat → Sample → List UInt8
  | 0, _ => marks.cap
  | _ + 1, .nothing => utf8 "None"
  | _ + 1, .truth b => utf8 (Sample.truthText b)
  | _ + 1, .int n => utf8 (toString n)
  | _ + 1, .real x => utf8 (Decimal.floatText (roundedReal x))
  | _ + 1, .complex re im =>
    utf8 ("c" ++ Decimal.floatText (roundedReal re) ++ Decimal.floatText (roundedReal im))
  | _ + 1, .text s => utf8 ("s" ++ s)
  | _ + 1, .bytes _ content => utf8 "s" ++ content
  | levels + 1, .list items => utf8 s!"L{items.length}" ++ marks.join (encodeAll marks levels items)
  | levels + 1, .tuple items =>
    utf8 s!"L{items.length}" ++ marks.join (encodeAll marks levels items)
  | levels + 1, .set _ items =>
    let prints := (encodeAll marks levels items).map Sha256.hexDigest
    utf8 s!"S{items.length}" ++
      utf8 (String.join (prints.mergeSort fun a b => decide (a ≤ b)))
  | levels + 1, .dict entries =>
    utf8 s!"D{entries.length}" ++ (inOrder (encodeEntries marks levels entries)).flatten
  | levels + 1, .pair left right =>
    let leftKey := encode marks levels (.text "left")
    let rightKey := encode marks levels (.text "right")
    let entries := [(Sha256.hexDigest leftKey, leftKey ++ encode marks levels left),
      (Sha256.hexDigest rightKey, rightKey ++ encode marks levels right)]
    utf8 "D2" ++ (inOrder entries).flatten
  | _ + 1, .array shape format content =>
    utf8 ("A" ++ shapeText shape ++ format) ++ Sha256.digest content
  | _ + 1, .other _ written => utf8 written

/-- The encodings of samples. -/
def encodeAll (marks : Marks) : Nat → List Sample → List (List UInt8)
  | _, [] => []
  | levels, item :: rest => encode marks levels item :: encodeAll marks levels rest

/-- The encodings of the entries of a dictionary, with the fingerprints of their keys. -/
def encodeEntries (marks : Marks) : Nat → List (Sample × Sample) → List (String × List UInt8)
  | _, [] => []
  | levels, (key, value) :: rest =>
    let written := encode marks levels key
    (Sha256.hexDigest written, written ++ encode marks levels value) ::
      encodeEntries marks levels rest

end

/-- The fingerprint of a sample. -/
def fingerprint (marks : Marks) (s : Sample) : String :=
  Sha256.hexDigest (encode marks maxLevels s)

end RobotConsole.Measure
