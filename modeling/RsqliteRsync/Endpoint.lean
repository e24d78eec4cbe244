import RsqliteRsync.Foundation.IpText
import RsqliteRsync.Ha.KvText

/-- Where a database lies. Texts are lists of characters. -/
inductive RsqliteRsync.Endpoint where
  | local (path : List Char)
  | remote (userHost path : List Char)
  | grpc (url database : List Char)
  deriving Repr, DecidableEq

namespace RsqliteRsync.Endpoint

open Foundation.IpText Gateway Ha.KvText

section Parser

def looksLikeRemoteHost (hostPart : List Char) : Bool :=
  if hostPart = [] ∨ hostPart.head? = some '.' ∨ '/' ∈ hostPart ∨ '\\' ∈ hostPart ∨
      hostPart.any isWhitespace then false
  else if '@' ∈ hostPart then true
  else if hostPart.map Char.toLower = "localhost".toList then true
  else if isIpAddr hostPart then true
  else '.' ∈ hostPart

def grpcScheme (s : List Char) : Option (Bool × List Char) :=
  match s.dropPrefix? "grpc://".toList with
  | some rest => some (false, rest)
  | none =>
    match s.dropPrefix? "grpcs://".toList with
    | some rest => some (true, rest)
    | none =>
      match s.dropPrefix? "http://".toList with
      | some rest => some (false, rest)
      | none => (s.dropPrefix? "https://".toList).map fun rest ↦ (true, rest)

def parseGrpcParts (s : List Char) : Option (List Char × List Char) := do
  let (isTls, rest) ← grpcScheme s
  let (hostPort, dbPath) := (splitOnce '/' rest).getD (rest, [])
  if hostPort = [] then none
  else
    let scheme := if isTls then "https" else "http"
    some (scheme.toList ++ "://".toList ++ hostPort, dbPath.dropWhile (· == '/'))

def isRemoteCandidate (hostPart pathPart : List Char) : Bool :=
  let isWindowsDrive :=
    match hostPart with
    | [c] => c.isAlpha
    | _ => false
  !isWindowsDrive && pathPart ≠ [] && looksLikeRemoteHost hostPart

/-- The parts around the first `]:`. -/
def splitBracket : List Char → Option (List Char × List Char)
  | [] => none
  | c :: rest =>
    if c = ']' ∧ rest.head? = some ':' then some ([], rest.drop 1)
    else (splitBracket rest).map fun parts ↦ (c :: parts.1, parts.2)

/-- The parts around the last separator. -/
def rsplitOnce (sep : Char) (s : List Char) : Option (List Char × List Char) :=
  (splitOnce sep s.reverse).map fun parts ↦ (parts.2.reverse, parts.1.reverse)

def bracketedParts (s : List Char) : Option (List Char × List Char) := do
  let (before, path) ← splitBracket s
  let host := before.drop 1
  if s.head? = some '[' ∧ host ≠ [] ∧ path ≠ [] then some (host, path) else none

def bareIpParts (s : List Char) : Option (List Char × List Char) := do
  let (hostPart, pathPart) ← rsplitOnce ':' s
  if isIpAddr hostPart ∧ isRemoteCandidate hostPart pathPart then some (hostPart, pathPart)
  else none

def hostParts (s : List Char) : Option (List Char × List Char) := do
  let (hostPart, pathPart) ← splitOnce ':' s
  if isRemoteCandidate hostPart pathPart then some (hostPart, pathPart) else none

def parseRemoteParts (s : List Char) : Option (List Char × List Char) :=
  bracketedParts s <|> bareIpParts s <|> hostParts s

def parse (s : List Char) : Endpoint :=
  match parseGrpcParts s with
  | some (url, database) => .grpc url database
  | none =>
    match parseRemoteParts s with
    | some (userHost, path) => .remote userHost path
    | none => .local s

end Parser

section Splits

variable {s before after host path : List Char} {sep : Char}

theorem eq_of_splitOnce (h : splitOnce sep s = some (before, after)) :
    s = before ++ sep :: after ∧ sep ∉ before := by
  induction s generalizing before with
  | nil => simp [splitOnce] at h
  | cons c s ih =>
    by_cases hc : c = sep
    · rw [splitOnce, if_pos hc] at h
      cases h
      simp [hc]
    · rw [splitOnce, if_neg hc, Option.map_eq_some_iff] at h
      obtain ⟨⟨before', after'⟩, hsplit, heq⟩ := h
      cases heq
      obtain ⟨rfl, hmem⟩ := ih hsplit
      exact ⟨rfl, by simp [hmem, Ne.symm hc]⟩

theorem eq_of_splitBracket (h : splitBracket s = some (before, after)) :
    s = before ++ ']' :: ':' :: after := by
  induction s generalizing before with
  | nil => simp [splitBracket] at h
  | cons c s ih =>
    rw [splitBracket] at h
    split_ifs at h with hc
    · cases h
      obtain ⟨rfl, hcolon⟩ := hc
      cases s with
      | nil => simp at hcolon
      | cons d s => simpa using hcolon
    · obtain ⟨⟨before', after'⟩, hsplit, heq⟩ := Option.map_eq_some_iff.mp h
      cases heq
      rw [ih hsplit]
      rfl

theorem eq_of_rsplitOnce (h : rsplitOnce sep s = some (before, after)) :
    s = before ++ sep :: after ∧ sep ∉ after := by
  obtain ⟨⟨first, last⟩, hsplit, heq⟩ := Option.map_eq_some_iff.mp h
  cases heq
  obtain ⟨hs, hmem⟩ := eq_of_splitOnce hsplit
  exact ⟨by simpa using congrArg List.reverse hs, by simpa using hmem⟩

end Splits

section Hosts

variable {host : List Char}

theorem ne_nil_of_looksLike (h : looksLikeRemoteHost host = true) : host ≠ [] := by
  rintro rfl
  exact absurd h (by decide)

/-- What makes a text without a colon look like a host. An address is among the texts with a
dot. -/
theorem looksLike_cases (h : looksLikeRemoteHost host = true) (hcolon : ':' ∉ host) :
    '@' ∈ host ∨ host.map Char.toLower = "localhost".toList ∨ '.' ∈ host := by
  unfold looksLikeRemoteHost at h
  split_ifs at h with hbad hat hlocal hip
  · exact .inl hat
  · exact .inr (.inl hlocal)
  · obtain ⟨-, -, -, -, -, hsep⟩ := isIpAddr_shape hip
    exact .inr (.inr (hsep.resolve_right hcolon))
  · exact .inr (.inr (by simpa using h))

theorem eq_of_toLower {c : Char} (h : c.toLower = 'l') : c = 'l' ∨ c = 'L' := by
  unfold Char.toLower at h
  split at h
  · right
    have hval : c.val + 32 = 108 := congrArg Char.val h
    apply Char.ext
    calc c.val = c.val + 32 - 32 := (UInt32.add_sub_cancel c.val 32).symm
      _ = 108 - 32 := by rw [hval]
  · exact .inl h

/-- A host without a colon has a character that no group of an address has. -/
theorem exists_not_groupChar (h : looksLikeRemoteHost host = true) (hcolon : ':' ∉ host) :
    ∃ c ∈ host, ¬ GroupChar c := by
  obtain hat | hlocal | hdot := looksLike_cases h hcolon
  · exact ⟨'@', hat, by unfold GroupChar; decide⟩
  · obtain ⟨c, hc, hlower⟩ : ∃ c ∈ host, c.toLower = 'l' := by
      rw [← List.mem_map, hlocal]
      decide
    refine ⟨c, hc, ?_⟩
    obtain rfl | rfl := eq_of_toLower hlower <;> (unfold GroupChar; decide)
  · exact ⟨'.', hdot, by unfold GroupChar; decide⟩

/-- A drive letter is no host. -/
theorem not_isAlpha_of_looksLike {c : Char} (h : looksLikeRemoteHost [c] = true)
    (hcolon : ':' ∉ [c]) : c.isAlpha = false := by
  obtain hat | hlocal | hdot := looksLike_cases h hcolon
  · rw [← List.mem_singleton.mp hat]
    decide
  · simp at hlocal
  · rw [← List.mem_singleton.mp hdot]
    decide

theorem isRemoteCandidate_of_looksLike {path : List Char} (h : looksLikeRemoteHost host = true)
    (hcolon : ':' ∉ host) (hpath : path ≠ []) : isRemoteCandidate host path = true := by
  unfold isRemoteCandidate
  split
  next c => simp [h, hpath, not_isAlpha_of_looksLike h hcolon]
  next => simp [h, hpath]

theorem of_isRemoteCandidate {path : List Char} (h : isRemoteCandidate host path = true) :
    host ≠ [] ∧ path ≠ [] := by
  simp only [isRemoteCandidate, Bool.and_eq_true, decide_eq_true_eq] at h
  exact ⟨ne_nil_of_looksLike h.2, h.1.2⟩

end Hosts

section Rules

variable {s host path userHost : List Char}

theorem eq_scheme_of_dropPrefix {scheme rest : List Char} (hcolon : ':' ∉ host)
    (hscheme : ':' ∉ scheme)
    (h : (host ++ ':' :: path).dropPrefix? (scheme ++ ':' :: ['/', '/']) = some rest) :
    host = scheme := by
  obtain ⟨_, heq, hbeq⟩ := List.dropPrefix?_eq_some_iff.mp h
  rw [eq_of_beq hbeq, List.append_assoc] at heq
  have hsplit := splitOnce_append hcolon path
  rw [heq, List.cons_append, splitOnce_append hscheme] at hsplit
  exact congrArg Prod.fst (Option.some.inj hsplit.symm)

/-- No scheme name looks like a host. -/
theorem parseGrpcParts_host (h : looksLikeRemoteHost host = true) (hcolon : ':' ∉ host)
    (path : List Char) : parseGrpcParts (host ++ ':' :: path) = none := by
  have hnone (scheme : List Char) (hscheme : ':' ∉ scheme)
      (hhost : looksLikeRemoteHost scheme = false) :
      (host ++ ':' :: path).dropPrefix? (scheme ++ ':' :: ['/', '/']) = none := by
    by_contra hne
    obtain ⟨rest, hrest⟩ := Option.ne_none_iff_exists'.mp hne
    rw [← eq_scheme_of_dropPrefix hcolon hscheme hrest, h] at hhost
    cases hhost
  have hgrpc : (host ++ ':' :: path).dropPrefix? "grpc://".toList = none :=
    hnone "grpc".toList (by decide) (by decide)
  have hgrpcs : (host ++ ':' :: path).dropPrefix? "grpcs://".toList = none :=
    hnone "grpcs".toList (by decide) (by decide)
  have hhttp : (host ++ ':' :: path).dropPrefix? "http://".toList = none :=
    hnone "http".toList (by decide) (by decide)
  have hhttps : (host ++ ':' :: path).dropPrefix? "https://".toList = none :=
    hnone "https".toList (by decide) (by decide)
  simp only [parseGrpcParts, grpcScheme, hgrpc, hgrpcs, hhttp, hhttps]
  rfl

theorem bracketedParts_host (hne : host ≠ []) (hbracket : host.head? ≠ some '[')
    (path : List Char) : bracketedParts (host ++ ':' :: path) = none := by
  have hhead : (host ++ ':' :: path).head? ≠ some '[' := by
    rwa [List.head?_append_of_ne_nil _ hne]
  unfold bracketedParts
  cases splitBracket (host ++ ':' :: path) with
  | none => rfl
  | some parts => exact if_neg fun h ↦ hhead h.1

/-- The last colon is the host's own, or the text before it is no address. -/
theorem bareIpParts_host (h : looksLikeRemoteHost host = true) (hcolon : ':' ∉ host)
    (path : List Char) :
    bareIpParts (host ++ ':' :: path) = none ∨
      bareIpParts (host ++ ':' :: path) = some (host, path) := by
  unfold bareIpParts
  cases hsplit : rsplitOnce ':' (host ++ ':' :: path) with
  | none => exact .inl rfl
  | some parts =>
    obtain ⟨hostPart, pathPart⟩ := parts
    obtain ⟨heq, hmem⟩ := eq_of_rsplitOnce hsplit
    change (if _ then _ else _) = none ∨ (if _ then _ else _) = _
    split_ifs with hip
    · right
      obtain ⟨more, rfl, hmore⟩ | ⟨more, rfl, hmore⟩ := List.append_eq_append_iff.mp heq
      · cases more with
        | nil => simp_all
        | cons c more =>
          obtain ⟨rfl, rfl⟩ := List.cons.inj hmore
          obtain ⟨c, hc, hnot⟩ := exists_not_groupChar h hcolon
          exact absurd (groupChar_before_colon hip.1 hc) hnot
      · cases more with
        | nil => simp_all
        | cons c more =>
          obtain ⟨rfl, -⟩ := List.cons.inj hmore
          simp at hcolon
    · exact .inl rfl

theorem hostParts_host (h : looksLikeRemoteHost host = true) (hcolon : ':' ∉ host)
    (hpath : path ≠ []) : hostParts (host ++ ':' :: path) = some (host, path) := by
  simp [hostParts, splitOnce_append hcolon, isRemoteCandidate_of_looksLike h hcolon hpath]

def Denotes (s userHost path : List Char) : Prop :=
  userHost ≠ [] ∧ path ≠ [] ∧
    (s = userHost ++ ':' :: path ∨ s = '[' :: userHost ++ ']' :: ':' :: path)

theorem denotes_bracketedParts (h : bracketedParts s = some (userHost, path)) :
    Denotes s userHost path := by
  simp only [bracketedParts, Option.bind_eq_bind, Option.bind_eq_some_iff,
    Option.ite_none_right_eq_some, Option.some.injEq, Prod.mk.injEq] at h
  obtain ⟨⟨before, after⟩, hsplit, ⟨hhead, hhost, hpath⟩, rfl, rfl⟩ := h
  refine ⟨hhost, hpath, .inr ?_⟩
  have heq := eq_of_splitBracket hsplit
  cases before with
  | nil => exact absurd rfl hhost
  | cons c before =>
    rw [heq, List.cons_append, List.head?_cons, Option.some.injEq] at hhead
    rw [heq, hhead]
    rfl

theorem denotes_bareIpParts (h : bareIpParts s = some (userHost, path)) :
    Denotes s userHost path := by
  simp only [bareIpParts, Option.bind_eq_bind, Option.bind_eq_some_iff,
    Option.ite_none_right_eq_some, Option.some.injEq, Prod.mk.injEq] at h
  obtain ⟨⟨before, after⟩, hsplit, ⟨-, hcandidate⟩, rfl, rfl⟩ := h
  obtain ⟨hhost, hpath⟩ := of_isRemoteCandidate hcandidate
  exact ⟨hhost, hpath, .inl (eq_of_rsplitOnce hsplit).1⟩

theorem denotes_hostParts (h : hostParts s = some (userHost, path)) : Denotes s userHost path := by
  simp only [hostParts, Option.bind_eq_bind, Option.bind_eq_some_iff,
    Option.ite_none_right_eq_some, Option.some.injEq, Prod.mk.injEq] at h
  obtain ⟨⟨before, after⟩, hsplit, hcandidate, rfl, rfl⟩ := h
  obtain ⟨hhost, hpath⟩ := of_isRemoteCandidate hcandidate
  exact ⟨hhost, hpath, .inl (eq_of_splitOnce hsplit).1⟩

theorem parse_host (h : looksLikeRemoteHost host = true) (hcolon : ':' ∉ host)
    (hbracket : host.head? ≠ some '[') (hpath : path ≠ []) :
    parse (host ++ ':' :: path) = .remote host path := by
  have hremote : parseRemoteParts (host ++ ':' :: path) = some (host, path) := by
    rw [parseRemoteParts, bracketedParts_host (ne_nil_of_looksLike h) hbracket,
      hostParts_host h hcolon hpath]
    obtain hbare | hbare := bareIpParts_host h hcolon path <;> rw [hbare] <;> rfl
  rw [parse, parseGrpcParts_host h hcolon, hremote]

theorem denotes_of_parse (h : parse s = .remote userHost path) : Denotes s userHost path := by
  unfold parse at h
  split at h
  · cases h
  · split at h
    next hparts =>
      cases h
      rw [parseRemoteParts, Option.orElse_eq_some, Option.orElse_eq_some] at hparts
      obtain hparts | ⟨-, hparts | ⟨-, hparts⟩⟩ := hparts
      · exact denotes_bracketedParts hparts
      · exact denotes_bareIpParts hparts
      · exact denotes_hostParts hparts
    next => cases h

/-- A host and a path written with a colon between them come back as they are, and nothing else
is a remote endpoint. -/
theorem parse_remote :
    (∀ host path : List Char, ':' ∉ host → host.head? ≠ some '[' →
      looksLikeRemoteHost host = true → path ≠ [] →
      parse (host ++ ':' :: path) = .remote host path) ∧
    ∀ s userHost path : List Char, parse s = .remote userHost path →
      userHost ≠ [] ∧ path ≠ [] ∧
        (s = userHost ++ ':' :: path ∨ s = '[' :: userHost ++ ']' :: ':' :: path) := by
  constructor
  · intro host path hcolon hbracket h hpath
    exact parse_host h hcolon hbracket hpath
  · intro s userHost path h
    exact denotes_of_parse h

theorem parse_remote_colons_in_path :
    parse "u@h:a:[b]:c".toList = .remote "u@h".toList "a:[b]:c".toList :=
  parse_remote.1 "u@h".toList "a:[b]:c".toList (by decide) (by decide) (by decide) (by decide)

end Rules

end RsqliteRsync.Endpoint
