import FunctionPipeline.Document.Text

/-!
Faults: values of the wrong shape where nothing had checked the shape, and the refusals of the
file system. They are told apart from failures, which name a rule of this library that was broken.
-/

namespace FunctionPipeline

/-- What goes wrong when a value has a shape that an operation does not take. -/
inductive Fault where
  /-- A mapping or sequence has nothing under the key. -/
  | noSuchKey (key : Value)
  /-- Values of the type hold nothing under keys. -/
  | notSubscriptable (type : String)
  /-- A sequence or text was looked into with something that is no index. -/
  | badIndex (holder type : String)
  /-- A sequence is shorter than the index. -/
  | indexOutOfRange (holder : String)
  /-- The type lacks an operation. -/
  | noAttribute (type name : String)
  | notIterable (type : String)
  | noLength (type : String)
  /-- A writable container cannot be a key. -/
  | unhashable (type : String)
  /-- Values of the two types have no order. -/
  | unordered (left right : String)
  /-- A text was needed in a list of texts. -/
  | itemNotText (index : Nat) (type : String)
  /-- Values of the two types cannot be added in place. -/
  | notAddable (left right : String)
  /-- A failure whose message is no text has no message. -/
  | messageNotText (type : String)
  | notPath (type : String)
  /-- A value of the type was matched as if it were a text. -/
  | notText (type : String)
  /-- Octets were put together with a value of another type. -/
  | notOctets (type : String)
  | notNumber (type : String)
  /-- The value has no form in the interchange text. -/
  | notInterchangeable (type : String)
  | keyNotInterchangeable (type : String)
  /-- A failure of the kind was made of more or fewer parts than it takes. -/
  | wrongParts (kind : String) (most given : Nat)
  /-- Something added to a log record has the name of one of the record's own parts. -/
  | ownName (name : String)
  | circular
  /-- A container that holds itself has no copy. -/
  | endless
  /-- More digits than an integer may be read with. -/
  | tooManyDigits (count : Nat)
  /-- An integer with more digits than may be written. -/
  | longInteger
  /-- A text or number that is no value of the wanted kind. -/
  | badValue (message : String)
  /-- A number too large for a double. -/
  | overflow
  | unknownLevel (name : String)
  | levelNotNumber
  | unknownEncoding (name : String)
  | unencodable
  | isDirectory (path : String)
  | notDirectory (path : String)
  | fileExists (path : String)
  | noSuchFile (path : String)
  | undecodable
  | nameTooLong (path : String)
  /-- A start of paths cannot be replaced. -/
  | busy (path : String)
  /-- The medium under the files refused a step. -/
  | refused (reason : String)
  /-- A label of a domain name is empty, too long or not in the alphabet. -/
  | badLabel
  deriving Repr, Inhabited

namespace Fault

def className : Fault → String
  | .noSuchKey _ | .ownName _ => "KeyError"
  | .indexOutOfRange _ => "IndexError"
  | .noAttribute .. | .unknownLevel _ => "AttributeError"
  | .circular | .tooManyDigits _ | .longInteger | .badValue _ => "ValueError"
  | .endless => "RecursionError"
  | .overflow => "OverflowError"
  | .unknownEncoding _ => "LookupError"
  | .unencodable => "UnicodeEncodeError"
  | .badLabel => "UnicodeError"
  | .undecodable => "UnicodeDecodeError"
  | .isDirectory _ => "IsADirectoryError"
  | .notDirectory _ => "NotADirectoryError"
  | .fileExists _ => "FileExistsError"
  | .noSuchFile _ => "FileNotFoundError"
  | .nameTooLong _ | .busy _ | .refused _ => "OSError"
  | _ => "TypeError"

def isOfFiles : Fault → Bool
  | .isDirectory _ | .notDirectory _ | .fileExists _ | .noSuchFile _ | .nameTooLong _ | .busy _
  | .refused _ => true
  | _ => false

/-- The full name of a type, which says where the types of days and moments belong. -/
def fullName : String → String
  | "date" => "datetime.date"
  | "datetime" => "datetime.datetime"
  | type => type

def message : Fault → String
  | .noSuchKey key => key.literal
  | .notSubscriptable type => s!"'{fullName type}' object is not subscriptable"
  | .badIndex "str" type => s!"string indices must be integers, not '{type}'"
  | .badIndex "bytes" type => s!"byte indices must be integers or slices, not {type}"
  | .badIndex holder type => s!"{holder} indices must be integers or slices, not {type}"
  | .indexOutOfRange "str" => "string index out of range"
  | .indexOutOfRange holder => s!"{holder} index out of range"
  | .noAttribute type name => s!"'{fullName type}' object has no attribute '{name}'"
  | .notIterable type => s!"'{fullName type}' object is not iterable"
  | .noLength type => s!"object of type '{fullName type}' has no len()"
  | .unhashable type => s!"unhashable type: '{type}'"
  | .unordered left right =>
      s!"'<' not supported between instances of '{fullName left}' and '{fullName right}'"
  | .itemNotText index type =>
      s!"sequence item {index}: expected str instance, {fullName type} found"
  | .notAddable left right =>
      s!"unsupported operand type(s) for +=: '{fullName left}' and '{fullName right}'"
  | .messageNotText type => s!"__str__ returned non-string (type {fullName type})"
  | .notPath type => s!"expected str, bytes or os.PathLike object, not {fullName type}"
  | .notText type => s!"expected string or bytes-like object, got '{type}'"
  | .notOctets type => s!"a bytes-like object is required, not '{type}'"
  | .notNumber type => s!"must be real number, not {fullName type}"
  | .notInterchangeable type => s!"Object of type {type} is not JSON serializable"
  | .keyNotInterchangeable type =>
      s!"keys must be str, int, float, bool or None, not {type}"
  | .wrongParts kind _ 0 =>
      s!"{kind}.__init__() missing 1 required positional argument: 'message'"
  | .wrongParts kind most given =>
      s!"{kind}.__init__() takes from 2 to {most + 1} positional arguments " ++
        s!"but {given + 1} were given"
  | .ownName name => Quoted.text s!"Attempt to overwrite {Quoted.text name} in LogRecord"
  | .circular => "Circular reference detected"
  | .endless => "maximum recursion depth exceeded"
  | .tooManyDigits count =>
      s!"Exceeds the limit (4300 digits) for integer string conversion: value has {count} " ++
        "digits; use sys.set_int_max_str_digits() to increase the limit"
  | .longInteger =>
      "Exceeds the limit (4300 digits) for integer string conversion; " ++
        "use sys.set_int_max_str_digits() to increase the limit"
  | .badValue message => message
  | .overflow => "int too large to convert to float"
  | .unknownLevel name => s!"module 'logging' has no attribute '{name}'"
  | .levelNotNumber => "Level not an integer or a valid string"
  | .unknownEncoding name => s!"unknown encoding: {name}"
  | .unencodable => "codec can't encode character"
  | .undecodable => "codec can't decode byte"
  | .isDirectory path => s!"[Errno 21] Is a directory: {Quoted.text path}"
  | .notDirectory path => s!"[Errno 20] Not a directory: {Quoted.text path}"
  | .fileExists path => s!"[Errno 17] File exists: {Quoted.text path}"
  | .noSuchFile path => s!"[Errno 2] No such file or directory: {Quoted.text path}"
  | .nameTooLong path => s!"[Errno 36] File name too long: {Quoted.text path}"
  | .busy path => s!"[Errno 16] Device or resource busy: {Quoted.text path}"
  | .refused reason => reason
  | .badLabel => "label empty or too long"

end Fault

end FunctionPipeline
