/-! Segments of JSON pointers. In a segment `~0` stands for a tilde and `~1` for a slash. -/

namespace SchemaTypes.Pointer

def escapeChars : List Char → List Char
  | [] => []
  | '~' :: rest => '~' :: '0' :: escapeChars rest
  | '/' :: rest => '~' :: '1' :: escapeChars rest
  | c :: rest => c :: escapeChars rest

def unescapeChars : List Char → List Char
  | [] => []
  | '~' :: '0' :: rest => '~' :: unescapeChars rest
  | '~' :: '1' :: rest => '/' :: unescapeChars rest
  | c :: rest => c :: unescapeChars rest

def escape (segment : String) : String := String.ofList (escapeChars segment.toList)

def unescape (segment : String) : String := String.ofList (unescapeChars segment.toList)

def lastSegment (pointer : String) : String :=
  String.ofList (pointer.toList.reverse.takeWhile (· != '/')).reverse

def dropTrailingSlashes (pointer : String) : String :=
  String.ofList (pointer.toList.reverse.dropWhile (· == '/')).reverse

end SchemaTypes.Pointer
