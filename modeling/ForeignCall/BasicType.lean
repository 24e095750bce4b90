/-!
# Basic types

The scalar keywords that are understood without looking a name up.  Each keyword has one canonical
spelling; `void` is a second spelling of `none`.
-/

namespace ForeignCall

/-- A scalar type with a keyword of its own. -/
inductive BasicType
  | boolean
  | int8
  | uint8
  | int16
  | uint16
  | int32
  | uint32
  | int64
  | uint64
  | char
  | uchar
  | short
  | ushort
  | int
  | uint
  | long
  | ulong
  | size
  | ssize
  | offset
  | intptr
  | uintptr
  | unichar
  | unichar2
  | gtype
  | float
  | double
  | pointer
  | constPointer
  | utf8
  | filename
  | void
  deriving DecidableEq, Repr, Inhabited

namespace BasicType

/-- The canonical keyword of a basic type. -/
def keyword : BasicType → String
  | boolean => "gboolean"
  | int8 => "gint8"
  | uint8 => "guint8"
  | int16 => "gint16"
  | uint16 => "guint16"
  | int32 => "gint32"
  | uint32 => "guint32"
  | int64 => "gint64"
  | uint64 => "guint64"
  | char => "gchar"
  | uchar => "guchar"
  | short => "gshort"
  | ushort => "gushort"
  | int => "gint"
  | uint => "guint"
  | long => "glong"
  | ulong => "gulong"
  | size => "gsize"
  | ssize => "gssize"
  | offset => "goffset"
  | intptr => "gintptr"
  | uintptr => "guintptr"
  | unichar => "gunichar"
  | unichar2 => "gunichar2"
  | gtype => "GType"
  | float => "gfloat"
  | double => "gdouble"
  | pointer => "gpointer"
  | constPointer => "gconstpointer"
  | utf8 => "utf8"
  | filename => "filename"
  | void => "none"

/-- Every basic type once. -/
def all : List BasicType :=
  [boolean, int8, uint8, int16, uint16, int32, uint32, int64, uint64, char, uchar, short, ushort,
    int, uint, long, ulong, size, ssize, offset, intptr, uintptr, unichar, unichar2, gtype, float,
    double, pointer, constPointer, utf8, filename, void]

/-- The basic type that a keyword denotes, in its canonical spelling or as `void`. -/
def ofKeyword? (text : String) : Option BasicType :=
  if text = "void" then some void else all.find? (·.keyword == text)

/-- Text in the encoding of strings or of file names. -/
def isString : BasicType → Bool
  | utf8 | filename => true
  | _ => false

/-- An untyped address. -/
def isPointer : BasicType → Bool
  | pointer | constPointer => true
  | _ => false

/-- The absence of a value. -/
def isVoid : BasicType → Bool
  | void => true
  | _ => false

/-- A floating-point number. -/
def isFloat : BasicType → Bool
  | float | double => true
  | _ => false

/-- Truth values have a keyword of their own. -/
def isBoolean : BasicType → Bool
  | boolean => true
  | _ => false

/-- An integer: whatever is not text, an address, void, a float or a truth value. -/
def isInteger (b : BasicType) : Bool :=
  !b.isString && !b.isPointer && !b.isVoid && !b.isFloat && !b.isBoolean

end BasicType

end ForeignCall
