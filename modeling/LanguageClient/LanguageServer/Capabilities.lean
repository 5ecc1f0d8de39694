import LanguageClient.Json.Shape

/-!
# `LanguageClient.LanguageServer.Capabilities`: what client and server can do

Both sides of an `initialize` request. The client declares little. Of what the
server declares, the parts that the protocol defines are kept, each in the form
that the protocol gives it; a part of another form makes the whole result
unusable.

- `clientCapabilities`: what this client declares.
- `initializeResult`: the shape of the server's result.
-/

set_option autoImplicit false

namespace LanguageClient.LanguageServer

/-- What this client declares: it shows progress, and does not register for
document changes later on. -/
def clientCapabilities : Json :=
  .object
    [("textDocument",
        .object [("synchronization", .object [("dynamicRegistration", .bool false)])]),
      ("window", .object [("workDoneProgress", .bool true)])]

namespace Capability

/-- A field that may be left out. -/
def optional (name : String) (shape : Shape) : String × Presence × Shape :=
  (name, .optional, shape)

/-- A field that has to be there. -/
def required (name : String) (shape : Shape) : String × Presence × Shape :=
  (name, .required, shape)

/-- A flag that may be left out. -/
def flag (name : String) : String × Presence × Shape := optional name .boolean

/-- A list of strings that may be left out. -/
def texts (name : String) : String × Presence × Shape := optional name (.list .text)

/-- A record of fields that may also come as an array. -/
def plain (fields : List (String × Presence × Shape)) : Shape := .record true fields

/-- The options of a provider that can report progress on its work. -/
def progressing (fields : List (String × Presence × Shape)) : Shape :=
  .record false (fields ++ [flag "workDoneProgress"])

/-- A provider that is there or not, or there with options. -/
def provider (options : Shape) : Shape := .oneOf [.boolean, options]

/-- A provider with no options but progress. -/
def simple : Shape := provider (progressing [])

/-- Which documents a registration is for; left out, it is kept as `null`. -/
def documentSelector : String × Presence × Shape :=
  ("documentSelector", .nullable,
    .list (plain [optional "language" .text, optional "scheme" .text, optional "pattern" .text]))

/-- A registration for certain documents. -/
def registration : Shape := plain [documentSelector, optional "id" .text]

/-- How documents are kept in step. -/
def textDocumentSync : Shape :=
  .oneOf
    [.int32,
      plain
        [flag "openClose", optional "change" .int32, flag "willSave", flag "willSaveWaitUntil",
          optional "save" (.oneOf [.boolean, plain [flag "includeText"]])]]

/-- A choice of notebooks: a name, or a record in which one of three properties has
to be there. Such a record is never given as an array. -/
def notebook : Shape :=
  let among (name : String) : Shape :=
    .record false
      (["notebook_type", "scheme", "pattern"].map fun property =>
        if property = name then required property .text else optional property .text)
  .oneOf [.text, among "notebook_type", among "scheme", among "pattern"]

/-- How notebooks are kept in step: those chosen by themselves, by their cells, or
by both. -/
def notebookSync : Shape :=
  let cells : Shape := .list (plain [required "language" .text])
  let selector : Shape :=
    .oneOf
      [.record false [required "notebook" notebook, optional "cells" cells],
        .record false [optional "notebook" notebook, required "cells" cells]]
  let options := [required "notebookSelector" (.list selector), flag "save"]
  .oneOf [plain options, plain (options ++ [optional "id" .text])]

/-- Files that an operation is announced for; a scheme that is left out is kept as
`null`. -/
def fileOperation : Shape :=
  plain
    [required "filters"
      (.list
        (plain
          [("scheme", .nullable, .text),
            required "pattern"
              (plain
                [required "glob" .text, optional "matches" (.word ["file", "folder"]),
                  optional "options" (plain [flag "ignoreCase"])])]))]

/-- What the server knows about workspaces. -/
def workspace : Shape :=
  plain
    [optional "workspaceFolders"
        (plain [flag "supported", optional "changeNotifications" (.oneOf [.boolean, .text])]),
      optional "fileOperations"
        (plain
          [optional "didCreate" fileOperation, optional "willCreate" fileOperation,
            optional "didRename" fileOperation, optional "willRename" fileOperation,
            optional "didDelete" fileOperation, optional "willDelete" fileOperation])]

/-- Semantic tokens. -/
def semanticTokens : Shape :=
  progressing
    [required "legend"
        (plain [required "tokenTypes" (.list .text), required "tokenModifiers" (.list .text)]),
      flag "range", optional "full" (.oneOf [.boolean, .record false [flag "delta"]])]

/-- All that a server can declare. -/
def server : Shape :=
  plain
    [optional "positionEncoding" .text,
      optional "textDocumentSync" textDocumentSync,
      optional "notebookDocumentSync" notebookSync,
      optional "selectionRangeProvider" simple,
      optional "hoverProvider" simple,
      optional "completionProvider"
        (progressing
          [flag "resolveProvider", texts "triggerCharacters", texts "allCommitCharacters",
            optional "completionItem" (plain [flag "labelDetailsSupport"])]),
      optional "signatureHelpProvider"
        (progressing [texts "triggerCharacters", texts "retriggerCharacters"]),
      optional "definitionProvider" simple,
      optional "typeDefinitionProvider" (provider registration),
      optional "implementationProvider" (provider registration),
      optional "referencesProvider" simple,
      optional "documentHighlightProvider" simple,
      optional "documentSymbolProvider" (provider (progressing [optional "label" .text])),
      optional "workspaceSymbolProvider" (provider (progressing [flag "resolveProvider"])),
      optional "codeActionProvider"
        (provider (progressing [texts "codeActionKinds", flag "resolveProvider"])),
      optional "codeLensProvider" (plain [flag "resolveProvider"]),
      optional "documentFormattingProvider" simple,
      optional "documentRangeFormattingProvider" simple,
      optional "documentOnTypeFormattingProvider"
        (plain [required "firstTriggerCharacter" .text, texts "moreTriggerCharacter"]),
      optional "renameProvider" (provider (progressing [flag "prepareProvider"])),
      optional "documentLinkProvider" (progressing [flag "resolveProvider"]),
      optional "colorProvider" (provider (.oneOf [plain [], registration])),
      optional "foldingRangeProvider" (provider (.oneOf [plain [], registration])),
      optional "declarationProvider"
        (.oneOf
          [.boolean, .record false [flag "workDoneProgress", documentSelector, optional "id" .text],
            progressing []]),
      optional "executeCommandProvider" (progressing [required "commands" (.list .text)]),
      optional "workspace" workspace,
      optional "callHierarchyProvider" simple,
      optional "semanticTokensProvider" semanticTokens,
      optional "monikerProvider" simple,
      optional "linkedEditingRangeProvider" simple,
      optional "inlineValueProvider" simple,
      optional "inlayHintProvider" (provider (progressing [flag "resolveProvider"])),
      optional "diagnosticProvider"
        (progressing
          [optional "identifier" .text, required "interFileDependencies" .boolean,
            required "workspaceDiagnostics" .boolean]),
      optional "experimental" .any]

end Capability

/-- The result of an `initialize` request: what the server can do, and who it
is. -/
def initializeResult : Shape :=
  .record true
    [Capability.required "capabilities" Capability.server,
      Capability.optional "serverInfo"
        (.record true [Capability.required "name" .text, Capability.optional "version" .text])]

end LanguageClient.LanguageServer
