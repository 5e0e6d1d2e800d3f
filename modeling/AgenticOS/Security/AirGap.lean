import AgenticOS.Data.Authority

/-!
# The air gap

In air-gap mode only endpoints on the machine itself may be used. The verdict on a URL reads a
host from it and looks the host up in a list.

Where the URL has a scheme, the host is read from its authority. Where it has none, user
information is taken away from the whole text before the path is, so that an `@` in the path or
the query hides the authority. And the list has the wildcard address, which is not loopback.

`str.lower` depends on the Unicode tables and is a parameter, as is `repr`.
-/

namespace AgenticOS.Security

open Authority List Option

/-- `EgressVerdict`, which is without measured values here. -/
structure EgressVerdict where
  allowed : Bool
  reason : String

def loopbackHosts : List String :=
  ["localhost", "127.0.0.1", "::1", "[::1]", "0.0.0.0"]

/-- What `re.match(r"^[a-zA-Z][a-zA-Z0-9+.-]*://([^/?#]+)", url)` captures. -/
def authorityGroup (url : List Char) : Option (List Char) :=
  match afterScheme url with
  | some after => if untilEnd after = [] then none else some (untilEnd after)
  | none => none

/-- The host and port, without user information and path. -/
def hostport (url : List Char) : List Char :=
  (afterLast '@' ((authorityGroup url).getD url)).takeWhile (· ≠ '/')

/-- The host without brackets or port. -/
def readHost (hostport : List Char) : List Char :=
  if hostport.head? = some '[' then
    if ']' ∈ hostport then (hostport.drop 1).takeWhile (· ≠ ']') else hostport
  else if ':' ∈ hostport then beforeLast ':' hostport
  else hostport

def hostOf (lower : String → String) (url : String) : String :=
  lower (String.ofList (readHost (hostport url.toList)))

def airgapVerdict (lower repr : String → String) (airGap : Bool) (baseUrl : String) :
    EgressVerdict :=
  if airGap then
    if hostOf lower baseUrl ∈ loopbackHosts then
      ⟨true, hostOf lower baseUrl ++ " is loopback: allowed in air-gap mode"⟩
    else
      ⟨false, "air-gap mode allows loopback endpoints only; " ++ repr (hostOf lower baseUrl) ++
        " is not loopback"⟩
  else ⟨true, "air-gap disabled"⟩

/-- As far as the list is concerned, only ASCII letters become small ones. -/
def FoldsAscii (lower : String → String) : Prop :=
  ∀ text, ∀ host ∈ loopbackHosts, lower text = host ↔ asciiLower text = host

section

variable {segment host tail : List Char}

theorem head_append_ne {first : Char} (ends : isEnd first = true)
    (bare : segment.head? ≠ some '[') (rest : List Char) :
    (segment ++ first :: rest).head? ≠ some '[' := by
  cases segment with
  | nil =>
    intro bracket
    cases Option.some.inj bracket
    cases ends
  | cons => simpa using bare

theorem readHost_of_offers (offers : Offers segment host) : readHost segment = host := by
  cases offers with
  | plain bare whole => rw [readHost, if_neg bare, if_neg whole]
  | @withPort _ port bare last =>
    have unbracketed : (host ++ ':' :: port).head? ≠ some '[' := by
      cases host with
      | nil => simp
      | cons => simpa using bare
    rw [readHost, if_neg unbracketed, if_pos (by simp), beforeLast_split last]
  | @bracketed _ rest first =>
    have before : ∀ char ∈ host, decide (char ≠ ']') = true := by
      rintro char member
      rw [decide_eq_true_iff]
      rintro rfl
      exact first member
    simp only [readHost, head?_cons, if_true, drop_one, tail_cons]
    rw [if_pos (by simp), takeWhile_append_of_pos before]
    simp

theorem offers_readHost (closed : segment.head? = some '[' → ']' ∈ segment) :
    Offers segment (readHost segment) := by
  unfold readHost
  split
  · next bracket =>
      obtain ⟨inside, rfl⟩ := head?_eq_some_iff.mp bracket
      have member := closed bracket
      rw [if_pos member]
      obtain ⟨address, rest, split, first⟩ :=
        eq_append_cons_of_mem ((mem_cons.mp member).resolve_left (by decide))
      subst split
      have read := readHost_of_offers (@Offers.bracketed address rest first)
      simp only [readHost, head?_cons, if_true, if_pos member] at read
      rw [read]
      exact .bracketed first
  · next bare =>
      split
      · next colon =>
          obtain ⟨host, port, rfl, last⟩ := exists_last_of_mem colon
          rw [beforeLast_split last]
          refine .withPort ?_ last
          intro bracket
          exact bare (by rw [head?_append, bracket, some_or])
      · next whole => exact .plain bare whole

theorem readHost_append (offers : Offers segment host)
    (ended : ∀ char ∈ tail.head?, isEnd char = true)
    (within : ∀ char ∈ readHost (segment ++ tail), isEnd char = false) :
    readHost (segment ++ tail) = host := by
  cases tail with
  | nil =>
    rw [append_nil]
    exact readHost_of_offers offers
  | cons first rest =>
    have firstEnds : isEnd first = true := ended first rfl
    have notColon : ':' ≠ first := by
      rintro rfl
      cases firstEnds
    -- If the tail is read, its first character is.
    have notRead : ∀ {before after},
        ¬ Offers (segment ++ first :: rest) (before ++ first :: after) := by
      intro before after offered
      have ends := within first (by rw [readHost_of_offers offered]; simp)
      rw [firstEnds] at ends
      cases ends
    have notPort : segment.head? ≠ some '[' → ':' ∉ rest := by
      intro bare colon
      obtain ⟨before, after, rfl, last⟩ := exists_last_of_mem colon
      have bareTail := head_append_ne firstEnds bare before
      have offered := Offers.withPort bareTail last
      rw [append_assoc, cons_append] at offered
      exact notRead offered
    cases offers with
    | plain bare whole =>
      have bareTail := head_append_ne firstEnds bare rest
      have colonFree : ':' ∉ segment ++ first :: rest := by simp [whole, notColon, notPort bare]
      exact absurd (.plain bareTail colonFree) notRead
    | @withPort _ port bare last =>
      have bareTail : (host ++ ':' :: port).head? ≠ some '[' := by
        cases host with
        | nil => simp
        | cons => simpa using bare
      have colonFree : ':' ∉ port ++ first :: rest := by simp [last, notColon, notPort bareTail]
      have offered := Offers.withPort bare colonFree
      rw [← cons_append, ← append_assoc] at offered
      exact readHost_of_offers offered
    | @bracketed _ after unclosed =>
      rw [cons_append, append_assoc, cons_append]
      exact readHost_of_offers (.bracketed unclosed)

end

/-- A host of the list, up to the case of its letters. -/
def Listed (host : List Char) : Prop :=
  asciiLower (String.ofList host) ∈ loopbackHosts
deriving Decidable

section

variable {segment host : List Char}

open String

theorem Listed.not_isEnd (listed : Listed host) : ∀ char ∈ host, isEnd char = false := by
  intro char member
  have clean : ∀ entry ∈ loopbackHosts, entry.toList.all fun char => !isEnd char := by decide
  have small : char.toLower ∈ (asciiLower (.ofList host)).toList := by
    rw [asciiLower, toList_ofList, toList_ofList]
    exact mem_map_of_mem member
  have kept := all_eq_true.mp (clean _ listed) _ small
  by_contra ends
  rw [Bool.not_eq_false, isEnd, decide_eq_true_iff] at ends
  rcases ends with rfl | rfl | rfl <;> cases kept

theorem head?_asciiLower (host : List Char) :
    (asciiLower (String.ofList host)).toList.head? = host.head?.map Char.toLower := by
  rw [asciiLower, toList_ofList, toList_ofList, head?_map]

theorem not_bracketed (offers : Offers segment host) :
    asciiLower (String.ofList host) ≠ "[::1]" := by
  intro same
  have begins : host.head? = some '[' := by
    have first : host.head?.map Char.toLower = some '[' := by
      rw [← head?_asciiLower, same]
      rfl
    obtain ⟨char, head, small⟩ := map_eq_some_iff.mp first
    rw [head, toLower_inj small (by decide)]
  cases offers with
  | plain bare whole => exact bare begins
  | withPort bare last => exact bare begins
  | bracketed first =>
    have closing : ']' ∈ (String.ofList host).toList :=
      mem_of_mem_asciiLower (by rw [same]; decide) (by decide)
    rw [toList_ofList] at closing
    exact first closing

/-- A host of the list is read exactly if it is offered. -/
theorem listed_readHost_iff :
    Listed (readHost segment) ↔ ∃ host, Offers segment host ∧ Listed host := by
  constructor
  · intro listed
    by_cases closed : segment.head? = some '[' → ']' ∈ segment
    · exact ⟨_, offers_readHost closed, listed⟩
    · -- A text with an open bracket is read as it is, and no entry has one.
      rw [Classical.not_imp] at closed
      obtain ⟨bracket, unclosed⟩ := closed
      have shut : ∀ entry ∈ loopbackHosts,
          entry.toList.head? = some '[' → ']' ∈ entry.toList := by
        decide
      rw [readHost, if_pos bracket, if_neg unclosed] at listed
      have begins := head?_asciiLower segment
      rw [bracket] at begins
      have closing := mem_of_mem_asciiLower (shut _ listed begins) (by decide)
      rw [toList_ofList] at closing
      exact absurd closing unclosed
  · rintro ⟨host, offers, listed⟩
    rw [readHost_of_offers offers]
    exact listed

theorem isLoopback_of_listed (offers : Offers segment host) (listed : Listed host)
    (notWildcard : asciiLower (String.ofList host) ≠ "0.0.0.0") :
    IsLoopback (String.ofList host) := by
  have bracketed := not_bracketed offers
  have entry : asciiLower (.ofList host) = "localhost" ∨
      asciiLower (.ofList host) = "127.0.0.1" ∨
      asciiLower (.ofList host) = "::1" := by
    simpa [Listed, loopbackHosts, bracketed, notWildcard] using listed
  rcases entry with name | address | address
  · exact .inl name
  · refine .inr (.inr ?_)
    rw [address]
    decide
  · exact .inr (.inl address)

end

/-! ## The authority -/

variable {lower repr : String → String} {url : String} {host : List Char}

/-- There is no scheme with an authority, and an `@` stands behind what ends the authority. -/
def HidesAuthority (url : String) : Prop :=
  authorityGroup url.toList = none ∧ '@' ∈ sinceEnd url.toList

theorem not_isEnd_of_mem_hostport {char : Char}
    (member : char ∈ afterLast '@' (authority url.toList)) : isEnd char = false :=
  isEnd_of_mem_untilEnd (afterLast_subset _ _ member)

theorem takeWhile_hostport : (afterLast '@' (authority url.toList)).takeWhile (· ≠ '/') =
      afterLast '@' (authority url.toList) := by
  rw [takeWhile_eq_self_iff]
  intro char member
  rw [decide_eq_true_iff]
  rintro rfl
  cases not_isEnd_of_mem_hostport member

theorem authority_of_group {group : List Char} (grouped : authorityGroup url.toList = some group) :
    authority url.toList = group := by
  unfold authorityGroup at grouped
  split at grouped
  · next after scheme =>
      split at grouped
      · cases grouped
      · rw [authority, scheme, getD_some]
        exact Option.some.inj grouped
  · cases grouped

theorem authority_of_no_group (ungrouped : authorityGroup url.toList = none) :
    authority url.toList = [] ∨ (∃ after, url.toList = '/' :: '/' :: after) ∨
      authority url.toList = untilEnd url.toList := by
  unfold authorityGroup at ungrouped
  split at ungrouped
  · next after scheme =>
      split at ungrouped
      · next empty =>
          left
          rw [authority, scheme, getD_some]
          exact empty
      · cases ungrouped
  · next scheme =>
      right
      rw [authority, scheme, getD_none]
      unfold withoutScheme
      split
      · next after slashes => exact .inl ⟨after, slashes⟩
      · exact .inr rfl

section

variable (shown : ¬ HidesAuthority url)
  (found : splitPort (afterLast '@' (authority url.toList)) = some host)
include shown found

theorem hostport_eq (read : hostport url.toList ≠ []) :
    ∃ tail, (∀ char ∈ tail.head?, isEnd char = true) ∧
      hostport url.toList = afterLast '@' (authority url.toList) ++ tail := by
  cases grouped : authorityGroup url.toList with
  | some group =>
    refine ⟨[], by simp, ?_⟩
    rw [hostport, grouped, getD_some, ← authority_of_group grouped, takeWhile_hostport,
      append_nil]
  | none =>
    have visible : '@' ∉ sinceEnd url.toList := fun hidden => shown ⟨grouped, hidden⟩
    rcases authority_of_no_group grouped with empty | ⟨after, slashes⟩ | whole
    · rw [empty] at found
      cases found
    · have without : '@' ∉ '/' :: '/' :: after := by
        rw [slashes] at visible
        exact visible
      rw [hostport, grouped, getD_none, slashes, afterLast_of_not_mem without] at read
      exact absurd rfl read
    · refine ⟨(sinceEnd url.toList).takeWhile (· ≠ '/'), ?_, ?_⟩
      · intro char head
        apply isEnd_of_head?_sinceEnd
        rw [head?_takeWhile] at head
        exact (mem_filter_iff.mp head).1
      · have split : afterLast '@' (untilEnd url.toList ++ sinceEnd url.toList) = _ :=
          afterLast_append visible
        rw [untilEnd_append_sinceEnd] at split
        rw [hostport, grouped, getD_none, split, ← whole, takeWhile_append_of_pos]
        intro char member
        rw [decide_eq_true_iff]
        rintro rfl
        cases not_isEnd_of_mem_hostport member

theorem readHost_hostport (listed : Listed (readHost (hostport url.toList))) :
    readHost (hostport url.toList) = host := by
  have read : hostport url.toList ≠ [] := by
    intro empty
    rw [empty] at listed
    exact absurd listed (by decide)
  obtain ⟨tail, ended, same⟩ := hostport_eq shown found read
  rw [same] at listed ⊢
  exact readHost_append (offers_of_splitPort found) ended listed.not_isEnd

end

/-- The text behind an `@` in the path offers a host of the list, and the authority names a host
that is not loopback. -/
structure Misread (url : String) : Prop where
  hidden : HidesAuthority url
  offered : ∃ host, Offers (hostport url.toList) host ∧ Listed host
  away : ∃ host, Authority.host url = some host ∧ ¬ IsLoopback host

/-- The authority names the wildcard address, which what stands before the next slash offers. -/
def Wildcard (url : String) : Prop :=
  ∃ host, Authority.host url = some (String.ofList host) ∧ Offers (hostport url.toList) host ∧
    asciiLower (String.ofList host) = "0.0.0.0"

/-- Only loopback hosts are allowed. -/
def AirGapped (lower repr : String → String) (url : String) : Prop :=
  (airgapVerdict lower repr true url).allowed = true →
    ∀ host, Authority.host url = some host → IsLoopback host

theorem allowed_iff (folds : FoldsAscii lower) :
    (airgapVerdict lower repr true url).allowed = true ↔
      ∃ host, Offers (hostport url.toList) host ∧ Listed host := by
  have listed : hostOf lower url ∈ loopbackHosts ↔ Listed (readHost (hostport url.toList)) := by
    constructor
    · intro member
      have folded := (folds _ _ member).mp rfl
      rw [Listed, folded]
      exact member
    · intro member
      have folded := (folds _ _ member).mpr rfl
      rw [hostOf, folded]
      exact member
  rw [← listed_readHost_iff, ← listed, airgapVerdict, if_pos rfl]
  split
  · next member => simp [member]
  · next absent => simp [absent]

/-- The air gap holds exactly where the authority is neither hidden nor the wildcard. -/
theorem airGapped_iff (folds : FoldsAscii lower) :
    AirGapped lower repr url ↔ ¬ Misread url ∧ ¬ Wildcard url := by
  rw [AirGapped, allowed_iff folds]
  constructor
  · intro gapped
    constructor
    · rintro ⟨-, offered, host, found, away⟩
      exact away (gapped offered host found)
    · rintro ⟨host, found, offers, wildcard⟩
      have listed : Listed host := by
        rw [Listed, wildcard]
        decide
      have loopback := gapped ⟨host, offers, listed⟩ _ found
      rw [IsLoopback, wildcard] at loopback
      exact absurd loopback (by decide)
  · rintro ⟨notMisread, notWildcard⟩ offered host found
    by_contra away
    by_cases hidden : HidesAuthority url
    · exact notMisread ⟨hidden, offered, host, found, away⟩
    · obtain ⟨name, split, rfl⟩ := map_eq_some_iff.mp found
      have listed := listed_readHost_iff.mpr offered
      have same := readHost_hostport hidden split listed
      obtain ⟨read, offers, readListed⟩ := offered
      have here : read = name := by rw [← same, readHost_of_offers offers]
      subst here
      have notZero : asciiLower (.ofList read) ≠ "0.0.0.0" := by
        intro wildcard
        exact notWildcard ⟨read, found, offers, wildcard⟩
      exact away (isLoopback_of_listed offers readListed notZero)

/-- A model server on the machine. -/
theorem airGapped_localhost_iff : AirGapped asciiLower id "http://localhost:11434/v1" ↔
      ¬ Misread "http://localhost:11434/v1" ∧ ¬ Wildcard "http://localhost:11434/v1" :=
  airGapped_iff fun _ _ _ => .rfl

/-- A host elsewhere is accepted if the path ends in `@localhost`. -/
theorem elsewhere_accepted : ¬ ∀ (lower repr : String → String) (url : String), FoldsAscii lower →
      AirGapped lower repr url := by
  intro gapped
  have accepted := gapped asciiLower id "evil.com/@localhost" fun _ _ _ => .rfl
  have loopback := accepted (by decide +kernel) "evil.com" (by decide +kernel)
  exact absurd loopback (by decide +kernel)

end AgenticOS.Security
