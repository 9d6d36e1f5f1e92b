/-
MarkerBlock.CodePage.Labels — finding a code page by label, and
registering the one page a run uses.

* `labels` lists every label of every single-byte page.
* `ofLabel?` ignores ASCII letter case and surrounding ASCII white space.
* `register` is write-once: the first label that names a page decides, later
  labels have to name the same page.
-/
import MarkerBlock.CodePage.Tables

namespace MarkerBlock.CodePage

/-! ## §1 Labels -/

/-- Every label, in lower case, grouped by the page it names. -/
def labels : List (CodePage × List String) :=
  [(ibm866,
      ["866", "cp866", "csibm866", "ibm866"]),
   (iso8859_2,
      ["csisolatin2", "iso-8859-2", "iso-ir-101", "iso8859-2", "iso88592", "iso_8859-2",
       "iso_8859-2:1987", "l2", "latin2"]),
   (iso8859_3,
      ["csisolatin3", "iso-8859-3", "iso-ir-109", "iso8859-3", "iso88593", "iso_8859-3",
       "iso_8859-3:1988", "l3", "latin3"]),
   (iso8859_4,
      ["csisolatin4", "iso-8859-4", "iso-ir-110", "iso8859-4", "iso88594", "iso_8859-4",
       "iso_8859-4:1988", "l4", "latin4"]),
   (iso8859_5,
      ["csisolatincyrillic", "cyrillic", "iso-8859-5", "iso-ir-144", "iso8859-5",
       "iso88595", "iso_8859-5", "iso_8859-5:1988"]),
   (iso8859_6,
      ["arabic", "asmo-708", "csiso88596e", "csiso88596i", "csisolatinarabic", "ecma-114",
       "iso-8859-6", "iso-8859-6-e", "iso-8859-6-i", "iso-ir-127", "iso8859-6", "iso88596",
       "iso_8859-6", "iso_8859-6:1987"]),
   (iso8859_7,
      ["csisolatingreek", "ecma-118", "elot_928", "greek", "greek8", "iso-8859-7",
       "iso-ir-126", "iso8859-7", "iso88597", "iso_8859-7", "iso_8859-7:1987",
       "sun_eu_greek"]),
   (iso8859_8,
      ["csiso88598e", "csisolatinhebrew", "hebrew", "iso-8859-8", "iso-8859-8-e",
       "iso-ir-138", "iso8859-8", "iso88598", "iso_8859-8", "iso_8859-8:1988", "visual"]),
   (iso8859_8i,
      ["csiso88598i", "iso-8859-8-i", "logical"]),
   (iso8859_10,
      ["csisolatin6", "iso-8859-10", "iso-ir-157", "iso8859-10", "iso885910", "l6",
       "latin6"]),
   (iso8859_13,
      ["iso-8859-13", "iso8859-13", "iso885913"]),
   (iso8859_14,
      ["iso-8859-14", "iso8859-14", "iso885914"]),
   (iso8859_15,
      ["csisolatin9", "iso-8859-15", "iso8859-15", "iso885915", "iso_8859-15", "l9"]),
   (iso8859_16,
      ["iso-8859-16"]),
   (koi8r,
      ["cskoi8r", "koi", "koi8", "koi8-r", "koi8_r"]),
   (koi8u,
      ["koi8-ru", "koi8-u"]),
   (macintosh,
      ["csmacintosh", "mac", "macintosh", "x-mac-roman"]),
   (windows874,
      ["dos-874", "iso-8859-11", "iso8859-11", "iso885911", "tis-620", "windows-874"]),
   (windows1250,
      ["cp1250", "windows-1250", "x-cp1250"]),
   (windows1251,
      ["cp1251", "windows-1251", "x-cp1251"]),
   (windows1252,
      ["ansi_x3.4-1968", "ascii", "cp1252", "cp819", "csisolatin1", "ibm819", "iso-8859-1",
       "iso-ir-100", "iso8859-1", "iso88591", "iso_8859-1", "iso_8859-1:1987", "l1",
       "latin1", "us-ascii", "windows-1252", "x-cp1252"]),
   (windows1253,
      ["cp1253", "windows-1253", "x-cp1253"]),
   (windows1254,
      ["cp1254", "csisolatin5", "iso-8859-9", "iso-ir-148", "iso8859-9", "iso88599",
       "iso_8859-9", "iso_8859-9:1989", "l5", "latin5", "windows-1254", "x-cp1254"]),
   (windows1255,
      ["cp1255", "windows-1255", "x-cp1255"]),
   (windows1256,
      ["cp1256", "windows-1256", "x-cp1256"]),
   (windows1257,
      ["cp1257", "windows-1257", "x-cp1257"]),
   (windows1258,
      ["cp1258", "windows-1258", "x-cp1258"]),
   (macCyrillic,
      ["x-mac-cyrillic", "x-mac-ukrainian"]),
   (userDefined,
      ["x-user-defined"])]

/-- ASCII white space as labels allow it around them: tab, line feed, form feed,
carriage return, space. -/
def isLabelBlank (c : Char) : Bool :=
  c == '\t' || c == '\n' || c == '\x0c' || c == '\r' || c == ' '

/-- A label without surrounding white space, in lower case. -/
def canonicalLabel (label : String) : String :=
  let trimmed := ((label.toList.dropWhile isLabelBlank).reverse.dropWhile isLabelBlank).reverse
  String.ofList (trimmed.map Char.toLower)

/-- The page a label names. -/
def ofLabel? (label : String) : Option CodePage :=
  let canonical := canonicalLabel label
  (labels.find? fun entry => entry.2.contains canonical).map Prod.fst

/-! ## §2 Registration -/

/-- Label of the page used when none is chosen. -/
def defaultLabel : String := "windows-1252"

/-- The page in use: the registered one, or Windows-1252. -/
def inUse (registered : Option CodePage) : CodePage := registered.getD windows1252

/-- Why a label could not be registered. -/
inductive RegistrationError where
  /-- No single-byte page has this label. -/
  | unsupported (label : String)
  /-- The page of this name was registered earlier, and is another one. -/
  | alreadyRegistered (name : String)
deriving Repr, DecidableEq

/-- Wording of a registration error. -/
def RegistrationError.message : RegistrationError → String
  | .unsupported label => s!"unknown or multi-byte legacy code page: {label}"
  | .alreadyRegistered name => s!"legacy code page already initialized as {name}"

/-- Register the page `label` names (the default label if there is none), given
what is registered so far: the outcome, and what is registered afterwards. -/
def register (registered : Option CodePage) (label : Option String) :
    Except RegistrationError CodePage × Option CodePage :=
  let label := label.getD defaultLabel
  match ofLabel? label with
  | none => (.error (.unsupported label), registered)
  | some page =>
    let first := registered.getD page
    if first = page then (.ok first, some first)
    else (.error (.alreadyRegistered first.name), some first)

end MarkerBlock.CodePage
