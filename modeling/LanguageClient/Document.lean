import LanguageClient.Path

/-!
# `LanguageClient.Document`: documents and the selection of them

A document is what an editor has open. A selector decides by scheme and language
whether a document belongs to a server; a filter that leaves one of the two open
accepts any.

- `Document`, `Document.scheme`: a document, and the scheme of its URI.
- `Filter`, `Selector`: which documents are selected.
- `languageOf?`: the language of a file, by its extension.
-/

set_option autoImplicit false

namespace LanguageClient

/-- The language of Beef sources. -/
def beefLanguage : String := "bf"

/-- The language of a file that is no Beef source. -/
def plainLanguage : String := "plaintext"

/-- The scheme of documents on disk. -/
def fileScheme : String := "file"

/-- A document that is open in an editor. -/
structure Document where
  uri : String
  language : String
  version : Int32
  text : String
  deriving DecidableEq, Repr

/-- The scheme of the URI: what stands before its first colon, or nothing. -/
def Document.scheme (d : Document) : String :=
  match Text.splitFirst? ':' d.uri.toList with
  | some (scheme, _) => String.ofList scheme
  | none => ""

/-- A scheme and a language; each may be left open. -/
structure Filter where
  scheme : Option String
  language : Option String
  deriving DecidableEq, Repr

/-- Whether a document has the scheme and the language of the filter. -/
def Filter.accepts (f : Filter) (d : Document) : Bool :=
  f.scheme.all (· == d.scheme) && f.language.all (· == d.language)

/-- The filters that documents are selected by. -/
structure Selector where
  filters : List Filter
  deriving DecidableEq, Repr

/-- Whether there is no filter, so that no document is selected. -/
def Selector.isEmpty (s : Selector) : Bool := s.filters.isEmpty

/-- Whether a filter accepts the document. -/
def Selector.accepts (s : Selector) (d : Document) : Bool := s.filters.any (·.accepts d)

/-- Beef sources on disk. -/
def Selector.beef : Selector := ⟨[⟨some fileScheme, some beefLanguage⟩]⟩

/-- The language of a file: Beef sources end in `.bf`. -/
def languageOf? (p : Path) : Option String :=
  if p.extension? == some (Text.encode ['b', 'f']) then some beefLanguage else none

end LanguageClient
