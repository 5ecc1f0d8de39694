import LanguageClient.Proofs.Config.Transport
import LanguageClient.Proofs.Text.Split
import LanguageClient.Proofs.Text.Trim

/-!
# `LanguageClient.Proofs.Config.Address`: addresses in normal form

An address is in normal form if nothing about it is left to clean up: it can be dialed, and its
text denotes it again. Blanks are dropped at the ends of a text only, before its parts are told
apart, and brackets are dropped from the host. So blanks are left behind between the host and a
bracket, and in front of the last colon. Apart from them an address that is read is in normal
form.

* `of_parse`, `parse_display`: what is read, and what is read from the text of an address.
* `isNormal_iff`: when the address that a text denotes is in normal form.
* `parsed`: which parts of the normal form fail, and when.
-/

set_option autoImplicit false

namespace LanguageClient.Address

open Text

variable {text : String} {a : Address}

/-! ### Reading -/

/-- The host as it stands in a text: what is in front of the last colon, without brackets. -/
def written (text : String) : List Char := (cut (trim text.toList)).1

/-- The host that is meant. -/
def meant (host : List Char) : String := if host.isEmpty then loopback else String.ofList host

/-- The host in a text has no bracket at its ends, since they are stripped there. It may still have
blanks there, which stood inside the brackets. -/
theorem trimmed_written (text : String) : Trimmed isBracket (written text) := by
  unfold written cut
  split
  · exact trimmed_strip isBracket _
  · exact ⟨nofun, nofun⟩

/-- A text denotes its host, and a port that is not zero. Whether the host can be dialed is not
looked at yet. -/
theorem of_parse (h : parse text = .ok a) : a.host = meant (written text) ∧ a.port ≠ 0 := by
  unfold parse at h
  dsimp only at h
  split at h
  · -- No number, and the port zero, are refused.
    exact nomatch h
  · exact nomatch h
  · rename_i n hn hport
    obtain rfl := Except.ok.inj h
    refine ⟨rfl, fun hzero => hn ?_⟩
    -- A number that is read fits into a port, so the port is zero only if the number is.
    have hbound : n < UInt16.size := Nat.lt_succ_of_le (le_of_readUnsigned hport)
    calc n = (UInt16.ofNat n).toNat := (UInt16.toNat_ofNat_of_lt hbound).symm
      _ = 0 := congrArg UInt16.toNat hzero

/-- The host is the loopback address if there is none in the text, and else as it stands there. The
proofs below split on this: the loopback address has nothing to clean up, so only the other case is
about the text. -/
theorem host_of_parse (h : parse text = .ok a) :
    written text = [] ∧ a.host = loopback ∨
      written text ≠ [] ∧ a.host.toList = written text := by
  rw [(of_parse h).1, meant]
  cases written text with
  | nil => exact .inl ⟨rfl, rfl⟩
  | cons c host => exact .inr ⟨List.cons_ne_nil _ _, String.toList_ofList⟩

/-- The text of an address is the host, a colon and the port. The host may have colons of its own,
and the last one counts when the text is read. -/
theorem toList_display (a : Address) :
    a.display.toList = a.host.toList ++ ':' :: decimal a.port.toNat := by
  simp [display]

/-- The text of an address is read again, but for blanks in front of it and brackets around the
host. So whether the address is stable is a question about its host alone. -/
theorem parse_display (h : a.port ≠ 0) :
    parse a.display = .ok ⟨meant (strip isBracket (trimStart a.host.toList)), a.port⟩ := by
  have hdigit : ∀ c ∈ decimal a.port.toNat, c.isDigit = true := fun c => isDigit_of_mem_decimal
  have hcolon : ':' ∉ decimal a.port.toNat := fun hmem => absurd (hdigit _ hmem) (by decide)
  have htrim : trim a.display.toList =
      trimStart a.host.toList ++ ':' :: decimal a.port.toNat := by
    -- The text ends in a digit, so it has no blank to lose there.
    rw [toList_display]
    refine trim_append_cons _ (by decide) fun c hc => ?_
    rw [List.getLast?_cons_of_ne_nil (decimal_ne_nil _)] at hc
    exact isBlank_of_isDigit (hdigit c (List.mem_of_getLast? hc))
  -- The port is read back, and the colon in front of it is the last one.
  have hport : readUnsigned maxWord16 (decimal a.port.toNat) = some a.port.toNat :=
    readUnsigned_decimal (Nat.le_of_lt_succ a.port.toNat_lt)
  unfold parse
  rw [htrim, cut, splitLast?_append hcolon]
  dsimp only
  rw [hport]
  split
  · rename_i hnone
    exact nomatch hnone
  · rename_i hzero
    exact absurd (UInt16.toNat_inj.mp (Option.some.inj hzero)) h
  · rename_i n _ hn
    obtain rfl := Option.some.inj hn
    rw [UInt16.ofNat_toNat]
    rfl

/-! ### The normal form -/

/-- Nothing about an address is left to clean up. -/
structure IsNormal (a : Address) : Prop where
  present : allBlank a.host.toList = false
  blanks : Trimmed isBlank a.host.toList
  brackets : Trimmed isBracket a.host.toList
  port : 1 ≤ a.port.toNat ∧ a.port.toNat ≤ maxWord16
  valid : (Transport.dial a).validate = .ok ()
  stable : parse a.display = .ok a

/-- Which parts of the normal form an address has that a text denotes. -/
structure Parsed (text : String) (a : Address) : Prop where
  port : 1 ≤ a.port.toNat ∧ a.port.toNat ≤ maxWord16
  brackets : Trimmed isBracket a.host.toList
  /-- It can be dialed unless all that the text has for a host is blanks. -/
  valid : (Transport.dial a).validate = .ok () ↔
    written text = [] ∨ allBlank (written text) = false
  /-- Its own text denotes it unless the host in the text begins with a blank. -/
  stable : parse a.display = .ok a ↔ ∀ c, (written text).head? = some c → isBlank c = false
  normal : a.IsNormal ↔ Trimmed isBlank (written text)

/-- The loopback address begins and ends with the digit one, so it is trimmed of all that is not
that digit. -/
theorem trimmed_loopback {p : Char → Bool} (h : p '1' = false) : Trimmed p loopback.toList :=
  ⟨fun _ hc => Option.some.inj hc ▸ h, fun _ hc => Option.some.inj hc ▸ h⟩

/-- The host of an address that was read has no bracket at its ends, wherever it comes from. -/
theorem trimmed_host (h : parse text = .ok a) : Trimmed isBracket a.host.toList := by
  rcases host_of_parse h with ⟨-, hhost⟩ | ⟨-, hhost⟩
  · rw [hhost]
    exact trimmed_loopback (by decide)
  · rw [hhost]
    exact trimmed_written text

/-- An address that was read can be dialed unless all its host is blanks. The blanks stood between
brackets, since others would have been trimmed before. -/
theorem valid_iff (h : parse text = .ok a) : (Transport.dial a).validate = .ok () ↔
    written text = [] ∨ allBlank (written text) = false := by
  rw [Transport.validate_eq_ok_iff, Transport.Usable, and_iff_left (of_parse h).2]
  rcases host_of_parse h with ⟨hnone, hhost⟩ | ⟨hsome, hhost⟩
  · rw [hhost]
    exact ⟨fun _ => .inl hnone, fun _ => by decide⟩
  · rw [hhost, or_iff_right hsome]

/-- An address that was read is denoted by its own text exactly if the host in the text does not
begin with a blank. Of one that does only a part is read again: the blank is at the beginning of the
address now, and is trimmed. -/
theorem stable_iff (h : parse text = .ok a) : parse a.display = .ok a ↔
    ∀ c, (written text).head? = some c → isBlank c = false := by
  have hread : parse a.display = .ok a ↔
      meant (strip isBracket (trimStart a.host.toList)) = a.host := by
    rw [parse_display (of_parse h).2]
    constructor
    · exact fun heq => congrArg host (Except.ok.inj heq)
    · exact fun heq => by rw [heq]
  rw [hread]
  rcases host_of_parse h with ⟨hnone, hhost⟩ | ⟨hsome, hhost⟩
  · -- The loopback address begins with no blank, and neither does an empty host.
    rw [hnone, hhost]
    exact ⟨fun _ => nofun, fun _ => by decide⟩
  · constructor
    · intro heq c hc
      rw [hhost] at heq
      by_contra hblank
      -- The blank is dropped, so the host is shorter when it is read again.
      have hshort : (strip isBracket (trimStart (written text))).length < (written text).length :=
        Nat.lt_of_le_of_lt (length_strip_le _ _)
          (length_dropWhile_lt hc (Bool.not_eq_false _ ▸ hblank))
      unfold meant at heq
      split at heq
      · -- The loopback address does not begin with a blank.
        rw [← hhost, ← heq] at hc
        exact hblank (Option.some.inj hc ▸ by decide)
      · have hsame := congrArg String.toList heq
        rw [String.toList_ofList, hhost] at hsame
        rw [hsame] at hshort
        exact absurd hshort (Nat.lt_irrefl _)
    · intro hfirst
      -- Nothing is dropped in front, and brackets are not there to be stripped.
      rw [hhost, trimStart, dropWhile_eq_self hfirst, strip_eq_self (trimmed_written text), meant,
        if_neg (by rwa [List.isEmpty_iff]), ← hhost, String.ofList_toList]

/-- The port of an address that was read is not zero, and 16 bits hold it in any case. -/
theorem port_of_parse (h : parse text = .ok a) :
    1 ≤ a.port.toNat ∧ a.port.toNat ≤ maxWord16 := by
  have hne : a.port.toNat ≠ 0 := fun hzero => (of_parse h).2 (UInt16.toNat_inj.mp hzero)
  exact ⟨Nat.one_le_iff_ne_zero.mpr hne, Nat.le_of_lt_succ a.port.toNat_lt⟩

/-- The address that a text denotes is in normal form exactly if the host in the text has no blank
at its ends. A blank in front breaks stability, and one behind is never cleaned up; there is no
other fault. -/
theorem isNormal_iff (h : parse text = .ok a) : a.IsNormal ↔ Trimmed isBlank (written text) := by
  constructor
  · intro hnormal
    rcases host_of_parse h with ⟨hnone, -⟩ | ⟨-, hhost⟩
    · -- The text has no host, and the loopback address stands in for it.
      rw [hnone]
      exact ⟨nofun, nofun⟩
    · exact hhost ▸ hnormal.blanks
  · -- A host without blanks at its ends is not all blanks, so it can be dialed as well.
    intro htrimmed
    obtain ⟨hpresent, hblanks, hvalid⟩ : allBlank a.host.toList = false ∧
        Trimmed isBlank a.host.toList ∧
        (written text = [] ∨ allBlank (written text) = false) := by
      rcases host_of_parse h with ⟨hnone, hhost⟩ | ⟨hsome, hhost⟩
      · rw [hhost]
        exact ⟨by decide, trimmed_loopback (by decide), .inl hnone⟩
      · have hpresent := allBlank_of_trimmed htrimmed hsome
        rw [hhost]
        exact ⟨hpresent, htrimmed, .inr hpresent⟩
    exact {
      present := hpresent
      blanks := hblanks
      brackets := trimmed_host h
      port := port_of_parse h
      valid := (valid_iff h).mpr hvalid
      stable := (stable_iff h).mpr htrimmed.first }

/-- Of an address that a text denotes the port and the brackets are as they should be. All else
depends on the blanks that the host in the text has at its ends. -/
theorem parsed (h : parse text = .ok a) : Parsed text a where
  port := port_of_parse h
  brackets := trimmed_host h
  valid := valid_iff h
  stable := stable_iff h
  normal := isNormal_iff h

/-- An address with colons in its host, and blanks around all of it. -/
theorem normal_of_colons :
    parse " [::1]:5556 " = .ok ⟨"::1", 5556⟩ ∧ IsNormal ⟨"::1", 5556⟩ := by
  have hparse : parse " [::1]:5556 " = .ok ⟨"::1", 5556⟩ := by rfl
  have hwritten : Trimmed isBlank (written " [::1]:5556 ") :=
    ⟨fun _ hc => Option.some.inj hc ▸ rfl, fun _ hc => Option.some.inj hc ▸ rfl⟩
  exact ⟨hparse, (parsed hparse).normal.mpr hwritten⟩

/-- A blank between brackets is taken for a host: the address cannot be dialed, and its text denotes
another one. -/
theorem abnormal_of_bracketed_blank :
    let a : Address := ⟨" ", 5556⟩
    parse "[ ]:5556" = .ok a ∧ ¬a.IsNormal ∧ allBlank a.host.toList = true ∧
      (Transport.dial a).validate =
        .error (.invalidAddress " :5556" "host must be non-empty and port non-zero") ∧
      parse a.display = .ok ⟨"127.0.0.1", 5556⟩ := by
  refine ⟨rfl, fun h => ?_, rfl, rfl, rfl⟩
  exact absurd h.present (by decide)

end LanguageClient.Address
