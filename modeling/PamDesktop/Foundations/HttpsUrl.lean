import PamDesktop.Foundations.Lists

/-!
# URLs of the https scheme

What the URL Standard's parser does with a text whose scheme is `https`, over any parser of hosts.
White space goes, any number of slashes may follow the scheme, backslashes count as slashes, and
the segments of the path lose their dots. A URL that is written out is read back with its parts
(`parse_written`), and a path that has been read is read again as it is (`segments_dotted`).
-/

namespace Foundations

/-- A parsed URL of the scheme. -/
structure HttpsUrl (η : Type) where
  username : List Char
  password : List Char
  host : η
  port : Option Nat
  path : List (List Char)
  query : Option (List Char)
  fragment : Option (List Char)

/-- The host parser and the host serializer. -/
structure HostSyntax (η : Type) where
  parse : List Char → Option η
  serialize : η → List Char

namespace HttpsUrl

/-! ## Characters -/

/-- What ends a segment of a path. -/
def isSlash (c : Char) : Bool := c == '/' || c == '\\'

/-- What starts the query or the fragment. -/
def endsPath (c : Char) : Bool := c == '?' || c == '#'

/-- What starts the path, the query or the fragment. -/
def endsAuthority (c : Char) : Bool := isSlash c || endsPath c

/-- A C0 control or a space. -/
def isBlank (c : Char) : Bool := c.toNat ≤ 32

def isTabOrNewline (c : Char) : Bool := c == '\t' || c == '\n' || c == '\r'

/-- The characters of a scheme. -/
def isSchemeChar (c : Char) : Bool := c.isAlphanum || ['+', '-', '.'].contains c

/-- The C0 control percent-encode set. -/
def controlSet (c : Char) : Bool := c.toNat < 32 || 126 < c.toNat

def fragmentSet (c : Char) : Bool :=
  controlSet c || [' ', '\x22', '<', '>', '\x60'].contains c

/-- The special-query percent-encode set. -/
def querySet (c : Char) : Bool :=
  controlSet c || [' ', '\x22', '#', '<', '>', '\x27'].contains c

def pathSet (c : Char) : Bool :=
  controlSet c || [' ', '\x22', '#', '<', '>', '?', '^', '\x60', '\x7b', '\x7d'].contains c

def userinfoSet (c : Char) : Bool :=
  pathSet c || ['/', ':', ';', '=', '@', '[', '\\', ']', '|'].contains c

def hexDigits : List Char := "0123456789ABCDEF".toList

/-- A byte as `%XX`. -/
def percentByte (byte : UInt8) : List Char :=
  ['%', hexDigits.getD (byte.toNat / 16) '0', hexDigits.getD (byte.toNat % 16) '0']

/-- UTF-8 percent-encode with a set. -/
def encode (set : Char → Bool) (text : List Char) : List Char :=
  text.flatMap fun c => if set c then (String.utf8EncodeChar c).flatMap percentByte else [c]

/-! ## Paths -/

def isSingleDot (segment : List Char) : Bool :=
  [".", "%2e"].contains (String.ofList (segment.map Char.toLower))

def isDoubleDot (segment : List Char) : Bool :=
  ["..", ".%2e", "%2e.", "%2e%2e"].contains (String.ofList (segment.map Char.toLower))

/-- The path state on segments after those of the path so far. -/
def resolve (path : List (List Char)) : List (List Char) → List (List Char)
  | [] => path
  | [last] =>
      if isDoubleDot last then path.dropLast ++ [[]]
      else if isSingleDot last then path ++ [[]]
      else path ++ [last]
  | segment :: rest =>
      resolve (if isDoubleDot segment then path.dropLast
        else if isSingleDot segment then path
        else path ++ [segment]) rest

/-- The path start state: one slash that the path starts with. -/
def afterSlash : List Char → List Char
  | [] => []
  | c :: rest => if isSlash c then rest else c :: rest

/-- The segments of the text of a path. -/
def segments (text : List Char) : List (List Char) :=
  resolve [] (((afterSlash text).splitOnP isSlash).map (encode pathSet))

/-- How a path is written. -/
def pathText (path : List (List Char)) : List Char := path.flatMap ('/' :: ·)

/-! ## The parser -/

/-- The text without white space at its ends and without tabs and line breaks. -/
def clean (text : List Char) : List Char :=
  ((text.dropWhile isBlank).rdropWhile isBlank).filter (!isTabOrNewline ·)

/-- What follows the scheme and the slashes after it, if the scheme is `https`. -/
def afterScheme (text : List Char) : Option (List Char) :=
  match text.dropWhile isSchemeChar with
  | ':' :: rest =>
      if (text.takeWhile isSchemeChar).map Char.toLower = "https".toList then
        some (rest.dropWhile isSlash)
      else none
  | _ => none

/-- The host state: the host ends at a colon that is not between brackets. -/
def splitHost : Bool → List Char → List Char × List Char
  | _, [] => ([], [])
  | inside, c :: rest =>
      if c == ':' && !inside then ([], c :: rest)
      else
        let (host, port) := splitHost (c == '[' || (inside && c != ']')) rest
        (c :: host, port)

/-- The port state. The default port of the scheme counts as none. -/
def parsePort : List Char → Option (Option Nat)
  | [] => some none
  | _ :: digits =>
      let port := Nat.ofDigitChars 10 digits 0
      if !digits.all Char.isDigit || 65535 < port then none
      else if digits = [] || port = 443 then some none
      else some (some port)

/-- The text of the authority, after the scheme. -/
def authority (text : List Char) : List Char := text.takeWhile (!endsAuthority ·)

/-- The text of the path, the query and the fragment. -/
def afterAuthority (text : List Char) : List Char := text.dropWhile (!endsAuthority ·)

/-- What follows the mark, if the text has it first. -/
def marked (mark : Char) : List Char → Option (List Char)
  | [] => none
  | c :: rest => if c = mark then some rest else none

/-- The host parser on a host that may not be empty. -/
def parseHost {η : Type} (hosts : HostSyntax η) (name : List Char) : Option η :=
  if name = [] then none else hosts.parse name

/-- The basic URL parser on a text of the scheme. -/
def parse {η : Type} (hosts : HostSyntax η) (text : List Char) : Option (HttpsUrl η) := do
  let text ← afterScheme (clean text)
  let credentials := ((authority text).rdropWhile (· != '@')).dropLast
  let hostAndPort := splitHost false ((authority text).rtakeWhile (· != '@'))
  let host ← parseHost hosts hostAndPort.1
  let port ← parsePort hostAndPort.2
  let tail := afterAuthority text
  return {
    username := encode userinfoSet (credentials.takeWhile (· != ':'))
    password := encode userinfoSet ((credentials.dropWhile (· != ':')).drop 1)
    host
    port
    path := segments (tail.takeWhile (!endsPath ·))
    query := (marked '?' (tail.dropWhile (!endsPath ·))).map fun query =>
      encode querySet (query.takeWhile (· != '#'))
    fragment := (marked '#' (tail.dropWhile (· != '#'))).map (encode fragmentSet)
  }

/-- The path as it is written in a text. -/
def writtenPath (text : List Char) : List Char :=
  (afterScheme (clean text)).elim [] fun rest => (afterAuthority rest).takeWhile (!endsPath ·)

/-! ## The serializer -/

def schemeText : List Char := "https://".toList

def portText : Option Nat → List Char
  | none => []
  | some port => ':' :: Nat.toDigits 10 port

/-- The credentials with the mark after them, if there are any. -/
def credentialsText (username password : List Char) : List Char :=
  if username = [] ∧ password = [] then []
  else username ++ (if password = [] then [] else ':' :: password) ++ ['@']

/-- The URL serializer. -/
def serialize {η : Type} (hosts : HostSyntax η) (url : HttpsUrl η) : List Char :=
  schemeText ++ credentialsText url.username url.password ++ hosts.serialize url.host ++
    portText url.port ++ pathText url.path ++ (url.query.elim [] ('?' :: ·)) ++
    (url.fragment.elim [] ('#' :: ·))

end HttpsUrl

/-- A host is read back from what is written for it: a name or an address without colons and
brackets, or an address between brackets. -/
structure HostSyntax.Lawful {η : Type} (hosts : HostSyntax η) : Prop where
  again : ∀ text host, hosts.parse text = some host →
    hosts.parse (hosts.serialize host) = some host
  nonempty : ∀ text host, hosts.parse text = some host → hosts.serialize host ≠ []
  plain : ∀ text host, hosts.parse text = some host → ∀ c ∈ hosts.serialize host,
    HttpsUrl.isBlank c = false ∧ HttpsUrl.endsAuthority c = false ∧ c ≠ '@'
  closed : ∀ text host, hosts.parse text = some host →
    (':' ∉ hosts.serialize host ∧ '[' ∉ hosts.serialize host) ∨
      ∃ address, ']' ∉ address ∧ hosts.serialize host = '[' :: (address ++ [']'])

namespace HttpsUrl

/-! ## Percent-encoding -/

/-- What percent-encoding leaves: characters outside the set, and the encoding of others. -/
theorem mem_encode {set : Char → Bool} {text : List Char} {c : Char} (h : c ∈ encode set text) :
    (c ∈ text ∧ set c = false) ∨ c ∈ '%' :: hexDigits := by
  obtain ⟨source, hsource, hc⟩ := List.mem_flatMap.mp h
  cases hset : set source with
  | false =>
      rw [hset, if_neg Bool.false_ne_true, List.mem_singleton] at hc
      exact .inl (hc ▸ ⟨hsource, hset⟩)
  | true =>
      rw [hset, if_pos rfl] at hc
      obtain ⟨byte, -, hbyte⟩ := List.mem_flatMap.mp hc
      rw [percentByte, List.mem_cons, List.mem_cons, List.mem_singleton] at hbyte
      rcases hbyte with rfl | rfl | rfl
      · exact .inr List.mem_cons_self
      · exact .inr (List.mem_cons_of_mem _ (get_default_mem (by decide) _))
      · exact .inr (List.mem_cons_of_mem _ (get_default_mem (by decide) _))

/-- A text without characters of the set stays as it is. -/
theorem encode_plain {set : Char → Bool} {text : List Char} (h : ∀ c ∈ text, set c = false) :
    encode set text = text := by
  induction text with
  | nil => rfl
  | cons c rest ih =>
      have hrest := ih fun other hother => h other (List.mem_cons_of_mem c hother)
      rw [encode] at hrest ⊢
      rw [List.flatMap_cons, hrest, h c List.mem_cons_self, if_neg Bool.false_ne_true]
      rfl

/-! ## Normal paths -/

/-- A segment that is read back as it is written. -/
structure NormalSegment (segment : List Char) : Prop where
  plain : ∀ c ∈ segment, pathSet c = false ∧ isSlash c = false
  single : isSingleDot segment = false
  double : isDoubleDot segment = false

/-- A path that is read back as it is written. -/
structure NormalPath (path : List (List Char)) : Prop where
  nonempty : path ≠ []
  segments : ∀ segment ∈ path, NormalSegment segment

theorem normal_empty : NormalSegment [] := ⟨fun _ h => (nomatch h), rfl, rfl⟩

/-- No piece of a text that is cut at slashes has one. -/
theorem split_slash {text piece : List Char} (h : piece ∈ text.splitOnP isSlash) :
    ∀ c ∈ piece, isSlash c = false := by
  induction text generalizing piece with
  | nil =>
      rw [List.splitOnP_nil, List.mem_singleton] at h
      subst h
      exact fun _ h => nomatch h
  | cons first rest ih =>
      rw [List.splitOnP_cons_eq_if_modifyHead] at h
      cases hfirst : isSlash first with
      | true =>
          rw [hfirst, if_pos rfl, List.mem_cons] at h
          rcases h with rfl | h
          · exact fun _ h => nomatch h
          · exact ih h
      | false =>
          rw [hfirst, if_neg Bool.false_ne_true] at h
          cases hpieces : rest.splitOnP isSlash with
          | nil => exact absurd hpieces (List.splitOnP_ne_nil _ _)
          | cons head tail =>
              rw [hpieces, List.modifyHead_cons, List.mem_cons] at h
              rcases h with rfl | h
              · intro c hc
                rcases List.mem_cons.mp hc with rfl | hc
                · exact hfirst
                · exact ih (hpieces ▸ List.mem_cons_self) c hc
              · exact ih (hpieces ▸ List.mem_cons_of_mem head h)

/-- The path state only adds segments that are not dots, and empty ones. -/
theorem resolve_normal {segments path : List (List Char)} (hne : segments ≠ [])
    (hpath : ∀ segment ∈ path, NormalSegment segment)
    (hsegments : ∀ segment ∈ segments, ∀ c ∈ segment, pathSet c = false ∧ isSlash c = false) :
    NormalPath (resolve path segments) := by
  have hfront : ∀ segment ∈ path.dropLast, NormalSegment segment :=
    fun segment h => hpath segment (List.dropLast_subset path h)
  have hadd : ∀ (front : List (List Char)) (last : List Char),
      (∀ segment ∈ front, NormalSegment segment) → NormalSegment last →
      ∀ segment ∈ front ++ [last], NormalSegment segment := by
    intro front last hfront hlast segment h
    rcases List.mem_append.mp h with h | h
    · exact hfront segment h
    · exact List.mem_singleton.mp h ▸ hlast
  match segments, hne with
  | [last], _ =>
      have hlast := hsegments last List.mem_cons_self
      rw [resolve]
      split
      · exact ⟨List.append_ne_nil_of_right_ne_nil _ (List.cons_ne_nil _ _),
          hadd _ _ hfront normal_empty⟩
      · rename_i hdouble
        split
        · exact ⟨List.append_ne_nil_of_right_ne_nil _ (List.cons_ne_nil _ _),
            hadd _ _ hpath normal_empty⟩
        · rename_i hsingle
          exact ⟨List.append_ne_nil_of_right_ne_nil _ (List.cons_ne_nil _ _),
            hadd _ _ hpath ⟨hlast, Bool.eq_false_iff.mpr hsingle, Bool.eq_false_iff.mpr hdouble⟩⟩
  | segment :: next :: rest, _ =>
      have hrest : ∀ other ∈ next :: rest, ∀ c ∈ other, pathSet c = false ∧ isSlash c = false :=
        fun other h => hsegments other (List.mem_cons_of_mem segment h)
      rw [resolve]
      · refine resolve_normal (List.cons_ne_nil _ _) ?_ hrest
        split
        · exact hfront
        · rename_i hdouble
          split
          · exact hpath
          · rename_i hsingle
            exact hadd _ _ hpath ⟨hsegments segment List.mem_cons_self,
              Bool.eq_false_iff.mpr hsingle, Bool.eq_false_iff.mpr hdouble⟩
      · exact List.cons_ne_nil _ _

/-- Segments without dots stay as they are. -/
theorem resolve_of_normal {segments path : List (List Char)}
    (h : ∀ segment ∈ segments, NormalSegment segment) :
    resolve path segments = path ++ segments := by
  induction segments generalizing path with
  | nil => exact (List.append_nil path).symm
  | cons segment rest ih =>
      have hsegment := h segment List.mem_cons_self
      cases rest with
      | nil =>
          rw [resolve, hsegment.double, hsegment.single, if_neg Bool.false_ne_true,
            if_neg Bool.false_ne_true]
      | cons next rest =>
          rw [resolve, hsegment.double, hsegment.single, if_neg Bool.false_ne_true,
            if_neg Bool.false_ne_true,
            ih fun other hother => h other (List.mem_cons_of_mem _ hother),
            List.append_assoc, List.singleton_append]
          exact List.cons_ne_nil _ _

/-- The path of a text is normal. -/
theorem segments_normal (text : List Char) : NormalPath (segments text) := by
  refine resolve_normal ?_ (fun _ h => nomatch h) ?_
  · exact fun hnil => List.splitOnP_ne_nil _ _ (List.map_eq_nil_iff.mp hnil)
  · intro segment hsegment c hc
    obtain ⟨piece, hpiece, rfl⟩ := List.mem_map.mp hsegment
    rcases mem_encode hc with ⟨hmem, hset⟩ | hhex
    · exact ⟨hset, split_slash hpiece c hmem⟩
    · have hdigits : ∀ c ∈ '%' :: hexDigits, (!pathSet c && !isSlash c) = true :=
        List.all_eq_true.mp (by decide)
      simpa only [Bool.and_eq_true, Bool.not_eq_true'] using hdigits c hhex

/-- The pieces of a path that is written out. -/
theorem split_path_text {first : List Char} {rest : List (List Char)}
    (h : ∀ segment ∈ first :: rest, NormalSegment segment) :
    (first ++ pathText rest).splitOnP isSlash = first :: rest := by
  induction rest generalizing first with
  | nil =>
      rw [pathText, List.flatMap_nil, List.append_nil]
      exact List.splitOnP_eq_singleton fun c hc => ((h first List.mem_cons_self).plain c hc).2
  | cons next rest ih =>
      rw [pathText, List.flatMap_cons, List.cons_append,
        List.splitOnP_append_cons_of_forall_mem
          (fun c hc => ((h first List.mem_cons_self).plain c hc).2) '/' rfl]
      exact congrArg _ (ih fun segment hsegment => h segment (List.mem_cons_of_mem _ hsegment))

theorem map_encode_normal {path : List (List Char)}
    (h : ∀ segment ∈ path, NormalSegment segment) : path.map (encode pathSet) = path := by
  refine (List.map_congr_left fun segment hsegment => ?_).trans (List.map_id' path)
  exact encode_plain fun c hc => ((h segment hsegment).plain c hc).1

/-- A normal path is read back, also with a dot in front of it. -/
theorem segments_dotted {path : List (List Char)} (h : NormalPath path) :
    segments ('/' :: '.' :: pathText path) = path := by
  cases path with
  | nil => exact absurd rfl h.nonempty
  | cons first rest =>
      have hsplit :
          ('.' :: pathText (first :: rest)).splitOnP isSlash = ['.'] :: first :: rest := by
        have hdot : ∀ c ∈ ['.'], isSlash c = false := by
          intro c hc
          rw [List.mem_singleton.mp hc]
          rfl
        show (['.'] ++ '/' :: (first ++ pathText rest)).splitOnP isSlash = _
        rw [List.splitOnP_append_cons_of_forall_mem hdot '/' rfl, split_path_text h.segments]
      show resolve [] ((('.' :: pathText (first :: rest)).splitOnP isSlash).map _) = _
      rw [hsplit, List.map_cons, map_encode_normal h.segments]
      exact resolve_of_normal h.segments

/-! ## Reading what is written -/

/-- A text without blanks is clean. -/
theorem clean_plain {text : List Char} (h : ∀ c ∈ text, isBlank c = false) : clean text = text := by
  have hends : (text.dropWhile isBlank).rdropWhile isBlank = text := by
    rw [List.dropWhile_eq_self_iff.mpr fun hlength => by simp [h _ (List.getElem_mem _)],
      List.rdropWhile_eq_self_iff.mpr fun hne => by simp [h _ (List.getLast_mem hne)]]
  rw [clean, hends, List.filter_eq_self]
  intro c hc
  have hblank := h c hc
  rw [Bool.not_eq_true', ← Bool.not_eq_true]
  intro htab
  -- tabs and line breaks are blanks
  simp only [isTabOrNewline, Bool.or_eq_true, beq_iff_eq] at htab
  rcases htab with (rfl | rfl) | rfl <;> exact absurd hblank (by decide)

/-- What follows the scheme as it is written out. -/
theorem after_scheme_written {text : List Char} (h : ∀ c ∈ text.head?, isSlash c = false) :
    afterScheme (schemeText ++ text) = some text := by
  have hslashes : (('/' :: '/' :: text) : List Char).dropWhile isSlash = text := by
    rw [List.dropWhile_cons_of_pos (by rfl), List.dropWhile_cons_of_pos (by rfl)]
    cases text with
    | nil => rfl
    | cons c rest => rw [List.dropWhile_cons_of_neg (by simp [h c rfl])]
  show some ((('/' :: '/' :: text) : List Char).dropWhile isSlash) = some text
  rw [hslashes]

variable {η : Type} {hosts : HostSyntax η}

/-- The host ends where its port starts. -/
theorem split_host_written (hlawful : hosts.Lawful) {text : List Char} {host : η}
    (hhost : hosts.parse text = some host) (port : Option Nat) :
    splitHost false (hosts.serialize host ++ portText port) =
      (hosts.serialize host, portText port) := by
  have hport : splitHost false (portText port) = ([], portText port) := by
    cases port <;> rfl
  rcases hlawful.closed text host hhost with ⟨hcolon, hbracket⟩ | ⟨address, haddress, heq⟩
  · generalize hosts.serialize host = name at hcolon hbracket
    induction name with
    | nil => exact hport
    | cons c rest ih =>
        rw [List.mem_cons, not_or] at hcolon hbracket
        have hnot : (c == ':') = false ∧ (c == '[') = false :=
          ⟨beq_eq_false_iff_ne.mpr (Ne.symm hcolon.1), beq_eq_false_iff_ne.mpr (Ne.symm hbracket.1)⟩
        simp [splitHost, hnot, ih hcolon.2 hbracket.2]
  · have hinside : ∀ address : List Char, ']' ∉ address →
        splitHost true (address ++ ']' :: portText port) = (address ++ [']'], portText port) := by
      intro address
      induction address with
      | nil => exact fun _ => by simp [splitHost, hport]
      | cons c rest ih =>
          intro hmem
          rw [List.mem_cons, not_or] at hmem
          have hnot : (c != ']') = true := bne_iff_ne.mpr (Ne.symm hmem.1)
          simp [splitHost, hnot, ih hmem.2]
    rw [heq, List.cons_append, List.append_assoc]
    simp [splitHost, hinside address haddress]

/-- A port that is no default is read back. -/
theorem parse_port_written {port : Option Nat} (h : ∀ value ∈ port, value ≤ 65535 ∧ value ≠ 443) :
    parsePort (portText port) = some port := by
  cases port with
  | none => rfl
  | some value =>
      obtain ⟨hlimit, hdefault⟩ := h value rfl
      have hdigits : (Nat.toDigits 10 value).all Char.isDigit = true :=
        List.all_eq_true.mpr fun c hc => Nat.isDigit_of_mem_toDigits (by omega) (by omega) hc
      have hnonempty : Nat.toDigits 10 value ≠ [] := Nat.toDigits_ne_nil
      have hlimit : ¬ 65535 < value := by omega
      simp [portText, parsePort, Nat.ofDigitChars_ten_toDigits, hdigits, hnonempty, hlimit,
        hdefault]

/-- The characters of a written port. -/
theorem port_text_plain {port : Option Nat} {c : Char} (h : c ∈ portText port) :
    isBlank c = false ∧ endsAuthority c = false ∧ c ≠ '@' := by
  cases port with
  | none => cases h
  | some value =>
      rcases List.mem_cons.mp h with rfl | hdigit
      · decide
      · have hdigit : c.isDigit = true := Nat.isDigit_of_mem_toDigits (by omega) (by omega) hdigit
        have hrange : 48 ≤ c.toNat ∧ c.toNat ≤ 57 := by
          simpa [Char.isDigit, UInt32.le_iff_toNat_le] using hdigit
        refine ⟨?_, ?_, ?_⟩
        · simp only [isBlank, decide_eq_false_iff_not]
          omega
        · by_contra hends
          simp only [endsAuthority, isSlash, endsPath, Bool.not_eq_false, Bool.or_eq_true,
            beq_iff_eq] at hends
          rcases hends with (rfl | rfl) | rfl | rfl <;> exact absurd hdigit (by decide)
        · rintro rfl
          exact absurd hdigit (by decide)

/-- The characters of an encoded path. -/
theorem path_set_plain {c : Char} (h : pathSet c = false) :
    isBlank c = false ∧ endsPath c = false ∧ c ≠ '#' := by
  refine ⟨?_, ?_, ?_⟩
  · by_contra hblank
    simp only [isBlank, Bool.not_eq_false, decide_eq_true_eq] at hblank
    have hspace : c = ' ' := by
      have hcontrol : controlSet c = false := (Bool.or_eq_false_iff.mp h).1
      simp only [controlSet, Bool.or_eq_false_iff, decide_eq_false_iff_not] at hcontrol
      exact Char.toNat_inj.mp (show c.toNat = 32 by omega)
    subst hspace
    exact absurd h (by decide)
  · by_contra hends
    simp only [endsPath, Bool.not_eq_false, Bool.or_eq_true, beq_iff_eq] at hends
    rcases hends with rfl | rfl <;> exact absurd h (by decide)
  · rintro rfl
    exact absurd h (by decide)

/-- The ports that are read. -/
theorem parse_port_bound {text : List Char} {port : Option Nat}
    (h : parsePort text = some port) : ∀ value ∈ port, value ≤ 65535 ∧ value ≠ 443 := by
  intro value hvalue
  cases text with
  | nil =>
      obtain rfl := Option.some.inj h
      cases hvalue
  | cons mark digits =>
      simp only [parsePort] at h
      split at h
      · cases h
      · rename_i hvalid
        split at h
        · obtain rfl := Option.some.inj h
          cases hvalue
        · rename_i hdefault
          obtain rfl := Option.some.inj h
          obtain rfl := Option.some.inj hvalue
          simp only [Bool.or_eq_true, decide_eq_true_eq, not_or, Nat.not_lt] at hvalid hdefault
          exact ⟨hvalid.2, hdefault.2⟩

/-- Where the parts of a URL come from. -/
theorem parse_parts {text : List Char} {url : HttpsUrl η} (h : parse hosts text = some url) :
    (∃ name, hosts.parse name = some url.host) ∧
      (∀ value ∈ url.port, value ≤ 65535 ∧ value ≠ 443) ∧
      url.path = segments (writtenPath text) := by
  obtain ⟨rest, hrest, h⟩ := Option.bind_eq_some_iff.mp h
  obtain ⟨host, hhost, h⟩ := Option.bind_eq_some_iff.mp h
  obtain ⟨port, hport, h⟩ := Option.bind_eq_some_iff.mp h
  obtain rfl := Option.some.inj h
  refine ⟨?_, parse_port_bound hport, ?_⟩
  · rw [parseHost, Option.ite_none_left_eq_some] at hhost
    exact ⟨_, hhost.2⟩
  · rw [writtenPath, hrest]
    rfl

/-- A URL without credentials, query and fragment is read back, up to the dots of its path. -/
theorem parse_written (hlawful : hosts.Lawful) {text : List Char} {host : η}
    (hhost : hosts.parse text = some host) {port : Option Nat}
    (hport : ∀ value ∈ port, value ≤ 65535 ∧ value ≠ 443) {rest : List Char}
    (hrest : ∀ c ∈ rest, pathSet c = false) :
    parse hosts (schemeText ++ (hosts.serialize host ++ portText port ++ '/' :: rest)) =
      some ⟨[], [], host, port, segments ('/' :: rest), none, none⟩ := by
  have hauthority : ∀ c ∈ hosts.serialize host ++ portText port,
      isBlank c = false ∧ endsAuthority c = false ∧ c ≠ '@' := fun c hc =>
    (List.mem_append.mp hc).elim (hlawful.plain text host hhost c) port_text_plain
  have hpath : ∀ c ∈ '/' :: rest, isBlank c = false ∧ endsPath c = false ∧ c ≠ '#' := by
    intro c hc
    rcases List.mem_cons.mp hc with rfl | hc
    · decide
    · exact path_set_plain (hrest c hc)
  have hclean : ∀ c ∈ schemeText ++ (hosts.serialize host ++ portText port ++ '/' :: rest),
      isBlank c = false := by
    intro c hc
    rcases List.mem_append.mp hc with hc | hc
    · have hscheme : ∀ c ∈ schemeText, (!isBlank c) = true := List.all_eq_true.mp (by decide)
      simpa only [Bool.not_eq_true'] using hscheme c hc
    · exact (List.mem_append.mp hc).elim (fun h => (hauthority c h).1) fun h => (hpath c h).1
  have hnonempty := hlawful.nonempty text host hhost
  have hslashes : ∀ c ∈ (hosts.serialize host ++ portText port ++ '/' :: rest).head?,
      isSlash c = false := by
    intro c hc
    obtain ⟨first, name, hname⟩ := List.exists_cons_of_ne_nil hnonempty
    have hfirst : first ∈ hosts.serialize host := hname ▸ List.mem_cons_self
    rw [hname] at hc
    obtain rfl := Option.some.inj hc
    exact (Bool.or_eq_false_iff.mp (hlawful.plain text host hhost first hfirst).2.1).1
  have hends : ∀ c ∈ hosts.serialize host ++ portText port, (!endsAuthority c) = true :=
    fun c hc => by rw [(hauthority c hc).2.1]; rfl
  have hslash : ∀ c ∈ ('/' :: rest).head?, (!endsAuthority c) = false :=
    fun c hc => Option.some.inj hc ▸ rfl
  have hat : ∀ c ∈ hosts.serialize host ++ portText port, (c != '@') = true := fun c hc =>
    bne_iff_ne.mpr (hauthority c hc).2.2
  have hmark : ∀ c ∈ '/' :: rest, (!endsPath c) = true := fun c hc => by
    rw [(hpath c hc).2.1]
    rfl
  have hfragment : ∀ c ∈ '/' :: rest, (c != '#') = true := fun c hc =>
    bne_iff_ne.mpr (hpath c hc).2.2
  simp only [parse, clean_plain hclean, after_scheme_written hslashes, Option.bind_eq_bind,
    Option.bind_some, authority, afterAuthority, take_while_append hends hslash,
    drop_while_append hends hslash, List.rdropWhile_eq_nil_iff.mpr hat,
    List.rtakeWhile_eq_self_iff.mpr hat, split_host_written hlawful hhost, parseHost,
    if_neg hnonempty,
    hlawful.again text host hhost, parse_port_written hport, List.takeWhile_eq_self_iff.mpr hmark,
    List.dropWhile_eq_nil_iff.mpr hmark, List.dropWhile_eq_nil_iff.mpr hfragment]
  rfl

end HttpsUrl

end Foundations
