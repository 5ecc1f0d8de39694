import LanguageClient.FileTree
import LanguageClient.Proofs.Framing.Remainder
import LanguageClient.Proofs.LanguageServer.Handshake
import LanguageClient.Proofs.Text.Split
import LanguageClient.Session.Basic

/-!
# `LanguageClient.Proofs.Uri.File`: which file URIs are references

Two grammars meet at the URI of a file. `ofPath?` writes the bytes of a path by the rules of a
URL, and `isReference` reads the text by those of a URI reference. A segment of a URL may hold
four characters as they are that a segment of a reference may not: `[`, `]`, `^` and `|`
(`isStray`). Apart from them the grammars agree, for every byte that a path can have.

* `split_file`: a file URI has the scheme `file`, an empty authority and a path.
* `isReference_ofPath?`: the URI of a path is a reference unless the path has a stray byte.
* `refused_iff`: what that means for who hands such a URI on, a session that opens the file and
  a client that names it as its workspace.
-/

set_option autoImplicit false

namespace LanguageClient

namespace Uri

open Text

/-- The bytes that a segment of a URL may hold as they are, and a segment of a reference may
not. -/
def isStray (b : UInt8) : Bool := [0x5B, 0x5D, 0x5E, 0x7C].contains b

/-! ### Bytes -/

/-- A byte that stands for itself is a character of a path, unless it is stray. This is where the
two tables of the two standards are compared, byte by byte. -/
theorem isPathChar_of_literal {b : UInt8} (h : isLiteralByte b = true) :
    Char.ofNat b.toNat ≠ '%' ∧ isPathChar (Char.ofNat b.toNat) = !isStray b := by
  have hall : ∀ n < 256, isLiteralByte (UInt8.ofNat n) = true →
      Char.ofNat n ≠ '%' ∧ isPathChar (Char.ofNat n) = !isStray (UInt8.ofNat n) := by
    decide +kernel
  have hb := hall b.toNat b.toNat_lt
  rw [UInt8.ofNat_toNat] at hb
  exact hb h

/-- A stray byte is not encoded. -/
theorem isStray_of_not_literal {b : UInt8} (h : isLiteralByte b = false) : isStray b = false := by
  rw [← Bool.not_eq_true] at h ⊢
  intro hstray
  have hmem : b ∈ [0x5B, 0x5D, 0x5E, 0x7C] := List.contains_iff_mem.mp hstray
  have hliteral : ∀ b ∈ [0x5B, 0x5D, 0x5E, 0x7C], isLiteralByte b = true := by decide +kernel
  exact h (hliteral b hmem)

/-- The digits of an encoded byte are hexadecimal, as a reference demands them behind a `%`. -/
theorem isHex_upperHexDigit {n : Nat} (h : n < 16) : isHex (upperHexDigit n) = true := by
  have hall : ∀ n < 16, isHex (upperHexDigit n) = true := by decide
  exact hall n h

/-- A written byte keeps a path valid, unless it is stray. A byte that is encoded is always fine, so
only those that stand for themselves can do harm. -/
theorem isEncoded_encodeByte (b : UInt8) (s : List Char) :
    isEncoded isPathChar (encodeByte b ++ s) = (!isStray b && isEncoded isPathChar s) := by
  unfold encodeByte
  cases hliteral : isLiteralByte b with
  | true =>
    -- The byte is one character, and not the beginning of an encoded one.
    obtain ⟨hpercent, hpath⟩ := isPathChar_of_literal hliteral
    rw [if_pos rfl, List.singleton_append, isEncoded.eq_3 isPathChar _ s
      fun _ _ _ heq _ => hpercent heq, hpath, bne_iff_ne.mpr hpercent, Bool.true_and]
  | false =>
    -- The byte is encoded, and the two digits behind its `%` are hexadecimal.
    have hhigh : b.toNat / 16 < 16 := Nat.div_lt_of_lt_mul b.toNat_lt
    have hlow : b.toNat % 16 < 16 := Nat.mod_lt _ (by decide)
    rw [if_neg Bool.false_ne_true, List.cons_append, List.cons_append, List.singleton_append,
      isEncoded, isHex_upperHexDigit hhigh, isHex_upperHexDigit hlow,
      isStray_of_not_literal hliteral]
    rfl

/-- A written segment keeps a path valid unless it has a stray byte somewhere. By induction on its
bytes: each is written as a character of a path, as an escape, or is stray. -/
theorem isEncoded_flatMap_encodeByte (bytes : List UInt8) (s : List Char) :
    isEncoded isPathChar (bytes.flatMap encodeByte ++ s) =
      (!bytes.any isStray && isEncoded isPathChar s) := by
  induction bytes with
  | nil => rfl
  | cons b bytes ih =>
    rw [List.flatMap_cons, List.append_assoc, isEncoded_encodeByte, ih, List.any_cons,
      Bool.not_or, Bool.and_assoc]

/-! ### Paths -/

/-- A segment that means nothing has no stray byte. It is empty or a dot, so leaving it out of the
URI hides none. -/
theorem any_isStray_of_isIdle {segment : List UInt8} (h : Path.isIdle segment = true) :
    segment.any isStray = false := by
  rcases Bool.or_eq_true_iff.mp h with hnil | hdot
  · rw [eq_of_beq hnil]
    rfl
  · rw [eq_of_beq hdot]
    rfl

/-- Dropping the segments that mean nothing drops no stray byte. So the bytes of the path itself
decide, before it is taken apart and put together. -/
theorem any_meaningful (p : Path) :
    (p.meaningful.any fun segment => segment.any isStray) = p.bytes.any isStray := by
  have hslash : isStray Path.slash = false := by decide
  rw [Path.meaningful, List.any_filter, Path.segments, ← any_splitOn hslash]
  refine congrArg (fun stray => (splitOn Path.slash p.bytes).any stray) (funext fun segment => ?_)
  cases hidle : Path.isIdle segment with
  | true =>
    rw [any_isStray_of_isIdle hidle]
    rfl
  | false => rfl

/-- The path of a URI starts with a slash and is valid unless a segment has a stray byte. The
slashes between the segments are characters of a path themselves. -/
theorem isEncoded_encodeSegments (segments : List (List UInt8)) :
    isEncoded isPathChar (encodeSegments segments) =
      !segments.any fun segment => segment.any isStray := by
  have hslash : ∀ s, isEncoded isPathChar ('/' :: s) = isEncoded isPathChar s := fun _ => rfl
  -- Segments are joined by one slash in front of each.
  have hall : ∀ segments : List (List UInt8),
      isEncoded isPathChar (segments.flatMap fun s => '/' :: s.flatMap encodeByte) =
        !segments.any fun segment => segment.any isStray := by
    intro segments
    induction segments with
    | nil => rfl
    | cons segment segments ih =>
      rw [List.flatMap_cons, List.cons_append, hslash, isEncoded_flatMap_encodeByte, ih,
        List.any_cons, Bool.not_or]
  unfold encodeSegments
  split
  · rename_i hnil
    -- No segments at all are written as the slash of the root.
    rw [eq_of_beq hnil]
    rfl
  · exact hall segments

/-! ### The parts of a file URI -/

/-- No byte is written as a character that ends a path. So a file name with `#` or `?` in it cannot
be taken for a fragment or a query. -/
theorem notMem_encodeByte {c : Char} (hc : c = '#' ∨ c = '?') (b : UInt8) : c ∉ encodeByte b := by
  have hall : ∀ n < 256, '#' ∉ encodeByte (UInt8.ofNat n) ∧ '?' ∉ encodeByte (UInt8.ofNat n) := by
    decide +kernel
  have hb := hall b.toNat b.toNat_lt
  rw [UInt8.ofNat_toNat] at hb
  rcases hc with rfl | rfl
  · exact hb.1
  · exact hb.2

/-- The path of a URI begins with a slash, and neither a query nor a fragment begins in it. This is
what `split_file` needs to find the path as a whole. -/
theorem exists_encodeSegments (segments : List (List UInt8)) :
    ∃ path, encodeSegments segments = '/' :: path ∧ '#' ∉ path ∧ '?' ∉ path := by
  -- What is written are slashes and encoded bytes. Both characters are among those that are
  -- encoded.
  have hnone : ∀ {c : Char}, (c = '#' ∨ c = '?') → c ∉ encodeSegments segments := by
    intro c hc hmem
    have hslash : c ≠ '/' := by rcases hc with rfl | rfl <;> decide
    unfold encodeSegments at hmem
    split at hmem
    · exact hslash (List.mem_singleton.mp hmem)
    · obtain ⟨segment, -, hmem⟩ := List.mem_flatMap.mp hmem
      rcases List.mem_cons.mp hmem with heq | hmem
      · exact hslash heq
      · obtain ⟨b, -, hb⟩ := List.mem_flatMap.mp hmem
        exact notMem_encodeByte hc b hb
  -- Each segment has a slash in front, and a path without segments is a slash.
  have hstart : ∃ path, encodeSegments segments = '/' :: path := by
    unfold encodeSegments
    split
    · exact ⟨[], rfl⟩
    · cases segments with
      | nil => rename_i hnil; exact absurd rfl hnil
      | cons segment segments => exact ⟨_, rfl⟩
  obtain ⟨path, hpath⟩ := hstart
  rw [hpath] at hnone
  exact ⟨path, hpath, fun h => hnone (.inl rfl) (List.mem_cons_of_mem _ h),
    fun h => hnone (.inr rfl) (List.mem_cons_of_mem _ h)⟩

/-- A text without the separator is not cut. -/
theorem cutAt_of_notMem {sep : Char} {s : List Char} (h : sep ∉ s) : cutAt sep s = (s, none) := by
  rw [cutAt, splitFirst?_of_notMem h]

/-- A file URI has a scheme, an empty authority and a path. The hypotheses say that the path does
not end early. -/
theorem split_file {path : List Char} (hfragment : '#' ∉ path) (hquery : '?' ∉ path) :
    split (fileStart ++ '/' :: path) =
      { scheme := some "file".toList, authority := some [], path := '/' :: path
        query := none, fragment := none } := by
  have hnone : ∀ {c : Char}, (c = '#' ∨ c = '?') → c ∉ path → c ∉ fileStart ++ '/' :: path := by
    intro c hc hpath hmem
    rcases List.mem_append.mp hmem with hmem | hmem
    · rcases hc with rfl | rfl <;> exact absurd hmem (by decide)
    · rcases List.mem_cons.mp hmem with rfl | hmem
      · rcases hc with hc | hc <;> exact absurd hc (by decide)
      · exact hpath hmem
  -- There is no fragment to cut off, and then no query; the rest is computed.
  rw [split, cutAt_of_notMem (hnone (.inl rfl) hfragment)]
  dsimp only
  rw [cutAt_of_notMem (hnone (.inr rfl) hquery)]
  rfl

/-- The URI of a path is a reference unless the path has a stray byte. The scheme and the empty
authority are valid in any case, so the path alone decides. -/
theorem isReference_ofPath? {p : Path} {uri : String} (h : ofPath? p = some uri) :
    isReference uri.toList = !p.bytes.any isStray := by
  unfold ofPath? at h
  split at h
  · obtain rfl := Option.some.inj h
    obtain ⟨path, hpath, hfragment, hquery⟩ := exists_encodeSegments p.meaningful
    rw [String.toList_ofList, isReference, hpath, split_file hfragment hquery, ← any_meaningful,
      ← isEncoded_encodeSegments, hpath]
    -- Of the five parts of the URI the scheme and the authority are good, and two are not there.
    have hscheme : isScheme "file".toList = true := by decide
    have hauthority : isAuthority [] = true := by decide
    simp only [Parts.valid, Option.all_some, Option.all_none, hscheme, hauthority, Bool.true_and,
      Bool.and_true]
  · exact nomatch h

end Uri

/-! ### Who hands the URI on -/

namespace LanguageServer.Client

variable {η : Type} {c : Client η}

/-- To send a notification finds no fault with a URI: it is not looked at any more. -/
theorem notify_ne_invalidUri (c : Client η) (method : String) (params : Option Json)
    (uri : String) : c.notify method params ≠ .error (.invalidUri uri) := by
  rw [notify_eq]
  split
  · exact nofun
  · exact nofun

/-- A handshake that goes on does not find fault with a URI. The workspace is looked at before
anything is sent, so a fault comes first or not at all. -/
theorem afterInitialize_ne_invalidUri (c : Client η) (o : Rpc.Outcome) (uri : String) :
    (c.afterInitialize o).1 ≠ .failed (.invalidUri uri) := by
  unfold afterInitialize
  cases o with
  | error e => cases e <;> exact nofun
  | ok result =>
    dsimp only
    split
    · exact nofun
    · -- The answer was good, and `initialized` could not be sent. This is no fault of a URI.
      rename_i e hnotify
      intro heq
      obtain rfl := Answer.failed.inj heq
      exact notify_ne_invalidUri _ _ _ uri hnotify

/-- A handshake is refused for its workspace exactly if that is no reference. The client must be a
new one, since another is refused for being so. -/
theorem handshake_eq_invalidUri_iff (h : c.initialized = false) (uri : String) :
    (c.handshake (some uri)).1 = some (.failed (.invalidUri uri)) ↔
      Uri.isReference uri.toList = false := by
  unfold handshake
  rw [if_neg (by rw [h]; exact Bool.false_ne_true), Option.filter_some]
  cases Uri.isReference uri.toList with
  | false => exact ⟨fun _ => rfl, fun _ => rfl⟩
  | true =>
    -- The workspace is good. The handshake waits, or it has ended and no URI is to blame.
    refine ⟨fun heq => ?_, nofun⟩
    simp only [Bool.not_true, Bool.false_eq_true, if_false, proceed] at heq
    split at heq
    · exact nomatch heq
    · exact absurd (Option.some.inj heq) (afterInitialize_ne_invalidUri _ _ uri)

/-- A document with a reference for its URI is not refused for it: what may still fail is the
sending. -/
theorem openDocument_ne_invalidUri {d : Document} (h : Uri.isReference d.uri.toList = true)
    (uri : String) : c.openDocument d ≠ .error (.invalidUri uri) := by
  unfold openDocument tell
  rw [if_pos h]
  split
  · exact nofun
  · exact notify_ne_invalidUri _ _ _ uri

end LanguageServer.Client

/-- A session that would take a document refuses it for its URI exactly if that is no reference. The
hypotheses leave out the documents that it passes over before it looks at the URI, those of another
language and all once it is stopped. -/
theorem Session.openDocument_eq_invalidUri_iff {s : Session} {d : Document}
    (hroutes : s.routes d = true) (hphase : s.phase ≠ .stopped) :
    s.openDocument d = .error (.languageServer (.invalidUri d.uri)) ↔
      Uri.isReference d.uri.toList = false := by
  unfold Session.openDocument
  rw [if_neg (not_not.mpr hroutes), if_neg hphase]
  cases hreference : Uri.isReference d.uri.toList with
  | false => exact ⟨fun _ => rfl, fun _ => rfl⟩
  | true =>
    refine ⟨fun heq => ?_, nofun⟩
    rw [if_neg (not_not.mpr rfl)] at heq
    -- The document is tracked, or deferred, or the server is told about it.
    split at heq
    · exact nomatch heq
    · split at heq
      · exact nomatch heq
      · rename_i client _
        split at heq
        · exact nomatch heq
        · rename_i e htold
          obtain rfl := SessionError.languageServer.inj (Except.error.inj heq)
          exact absurd htold (client.openDocument_ne_invalidUri hreference d.uri)

/-- A document from a file is named by the URI of the path, as the workspace of a client is. -/
theorem Document.uri_of_ofFile {p : Path} {bytes : List UInt8} {d : Document}
    (h : Document.ofFile p bytes = .ok d) : Uri.ofPath? p = some d.uri := by
  unfold ofFile at h
  split at h
  · rename_i huri
    cases h
    exact huri
  · exact nomatch h
  · exact nomatch h

namespace Uri

/-- The URI that a path has is a reference exactly if the path has no stray byte. If it has
one, a session refuses the file, and a client refuses the workspace, for its URI; if not, neither
does. -/
theorem refused_iff {p : Path} {uri : String} (h : Config.fileUri p = .ok uri) :
    (parse? uri = none ↔ ∃ b ∈ p.bytes, isStray b = true) ∧
      (∀ (bytes : List UInt8) (d : Document), Document.ofFile p bytes = .ok d →
        ∀ s : Session, s.routes d = true → s.phase ≠ .stopped →
          (s.openDocument d = .error (.languageServer (.invalidUri uri)) ↔
            ∃ b ∈ p.bytes, isStray b = true)) ∧
      ∀ (η : Type) (c : LanguageServer.Client η), c.initialized = false →
        ((c.handshake (some uri)).1 = some (.failed (.invalidUri uri)) ↔
          ∃ b ∈ p.bytes, isStray b = true) := by
  have huri : ofPath? p = some uri := by
    unfold Config.fileUri at h
    split at h
    · rename_i heq
      rw [heq, Except.ok.inj h]
    · exact nomatch h
  -- All three places ask whether the URI is a reference, so this is all that has to be known.
  have hstray : isReference uri.toList = false ↔ ∃ b ∈ p.bytes, isStray b = true := by
    rw [isReference_ofPath? huri, Bool.not_eq_false', List.any_eq_true]
  refine ⟨?_, fun bytes d hfile s hroutes hphase => ?_, fun η c hnew => ?_⟩
  · unfold parse?
    rw [← hstray]
    split
    · rename_i hreference
      exact ⟨nofun, fun hnot => nomatch hreference.symm.trans hnot⟩
    · rename_i hnot
      exact ⟨fun _ => Bool.eq_false_iff.mpr hnot, fun _ => rfl⟩
  · obtain rfl := Option.some.inj ((Document.uri_of_ofFile hfile).symm.trans huri)
    exact (Session.openDocument_eq_invalidUri_iff hroutes hphase).trans hstray
  · exact (LanguageServer.Client.handshake_eq_invalidUri_iff hnew uri).trans hstray

/-- A path with a blank, a backslash and a byte that is no text. All of them are encoded, and so its
URI is accepted. -/
theorem accepted_of_blank :
    Config.fileUri ⟨Text.encode "/a \\".toList ++ [0xFF]⟩ = .ok "file:///a%20%5C%FF" ∧
      ¬ parse? "file:///a%20%5C%FF" = none := by
  have huri : Config.fileUri ⟨Text.encode "/a \\".toList ++ [0xFF]⟩ = .ok "file:///a%20%5C%FF" :=
    rfl
  refine ⟨huri, fun hnone => ?_⟩
  obtain ⟨b, hb, hstray⟩ := (refused_iff huri).1.mp hnone
  revert hstray
  revert b
  decide +kernel

/-- A file whose name has brackets. Its URI is no reference. -/
theorem refuses_bracket :
    Config.fileUri (.ofString "/a[1].bf") = .ok "file:///a[1].bf" ∧
      parse? "file:///a[1].bf" = none := ⟨rfl, rfl⟩

end Uri

end LanguageClient
