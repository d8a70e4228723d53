import Mathlib.Data.List.TakeWhile
import Notifyr.Mail.Mime

/-!
# Message ids and replies

`EmailTracker.make_msgid` (`app/depends/class_dep.py`), `extract_email_id_from_msgid` and the
references of `EmailReader` (`app/classes/email.py`), and the scan of a mailbox
`IMAPEmailMiniService.forwarded_email` (`app/services/mini/email/protocol_email_service.py`).

- `makeMsgid`, `extractEmailIdFromMsgid`: an id is put into a message id and taken out of it.
- `EmailReader.getOurLastMessageReferences`: the last reference of a domain.
- `recognise`, `forwardedEmail`: what the scan makes of a mail and of a mailbox.
- `RepliesRight`: ids come back, foreign ones are not ours, and each answer is reported once.
- `repliesRight_iff`: for which domains and mailboxes this is so.
-/

namespace Notifyr

open Theory

/-! ## Message ids -/

/-- A number in an f-string. -/
def natText (n : ℕ) : MailText := (toString n).toList

/-- The characters of a UUID as `str` writes it. -/
def isUuidChar (c : Char) : Bool := c ∈ "0123456789abcdef-".toList

/-- An email id that the tracker makes. -/
structure TrackerId where
  text : MailText
  chars : ∀ c ∈ text, isUuidChar c = true

/-- `make_msgid`, for the time and the random number that it draws. -/
def makeMsgid (timeval randval : ℕ) (emailId : Option MailText) (domain : MailText) : MailText :=
  '<' :: (natText timeval ++ '.' :: (natText randval ++ '.' :: emailId.getD [])) ++
    '@' :: (domain ++ ['>'])

/-- The characters that `strip('<>')` takes away. -/
def isAngle (c : Char) : Bool := c = '<' || c = '>'

/-- `s.strip('<>')`. -/
def stripAngle (s : MailText) : MailText :=
  ((s.dropWhile isAngle).reverse.dropWhile isAngle).reverse

/-- `extract_email_id_from_msgid`. -/
def extractEmailIdFromMsgid (msgid : Option MailText) (myDomain : MailText) : Option MailText :=
  (given msgid).bind fun s =>
    let parts := (stripAngle s).splitOn '@'
    if '@' ∈ s ∧ parts[1]? = some myDomain then ((parts.headD []).splitOn '.').getLast? else none

/-! ## The references of a mail -/

variable {ρ : Type}

/-- `References`. -/
def EmailReader.references (reader : EmailReader ρ) : List MailText :=
  (given (reader.headers.get? "References".toList)).elim [] fun references =>
    references.splitOn ' '

/-- `In_Reply_To`. -/
def EmailReader.inReplyTo (reader : EmailReader ρ) : Option MailText :=
  reader.headers.get? "In-Reply-To".toList

/-- What the variable `r` of the loop holds: a text, or the list that `split` makes of it. -/
inductive RefValue
  | text (value : MailText)
  | parts (values : List MailText)
  deriving DecidableEq

/-- The text, if it is one. -/
def RefValue.text? : RefValue → Option MailText
  | text value => some value
  | parts _ => none

/-- `Get_Our_Last_Message_References`: the list is compared with a text. -/
def EmailReader.getOurLastMessageReferences (reader : EmailReader ρ) (ourHost : MailText) :
    Option RefValue :=
  (reader.references.reverse.map fun r => RefValue.parts (r.splitOn '@')).find? fun r =>
    r = .text (ourHost ++ ['>'])

/-! ## The scan of a mailbox -/

/-- `get_email_provider_name`, for the table of providers and `str.lower`. -/
def getEmailProviderName (providerMap : Dict MailText MailText) (lower : MailText → MailText)
    (email : Option MailText) : MailText :=
  let subdomain := (email.bind fun e => (e.splitOn '@')[1]?).map fun domain =>
    lower ((domain.splitOn '.').headD [])
  (subdomain.bind providerMap.get?).getD "Untracked Provider".toList

/-- The providers, `str.lower`, the domain of the server, and the ids and times of events. -/
structure ScanEnv where
  providerMap : Dict MailText MailText
  lower : MailText → MailText
  domainName : MailText
  uuid : ℕ → String
  now : ℕ → String

/-- The event of a reply. -/
structure ReplyEvent where
  eventId : String
  description : MailText
  emailId : MailText
  currentEvent : String
  dateEventReceived : String
  espProvider : MailText

/-- The id of the email that a mail answers, and the sender that the report names. -/
def recognise (domainName : MailText) (isRe : Bool) (mail : EmailReader (EmailReader ρ)) :
    Option (MailText × Option MailText) :=
  match mail.messageRfc882 with
  | none =>
    let emailId := if isRe then mail.inReplyTo
      else (mail.getOurLastMessageReferences domainName).bind RefValue.text?
    (extractEmailIdFromMsgid emailId domainName).map fun id => (id, mail.fromAddr)
  | some original =>
    original.emailId.bind fun emailId =>
      (extractEmailIdFromMsgid original.messageId domainName).bind fun extracted =>
        if extracted = emailId then some (emailId, original.fromAddr) else none

/-- The event for a mail, with or without the full original attached. -/
def replyEvent (env : ScanEnv) (isRe : Bool) (full : Bool) (i : ℕ)
    (answer : MailText × Option MailText) : ReplyEvent where
  eventId := env.uuid i
  description := answer.2.getD "None".toList ++
    (if isRe then " has replied to".toList else " has forwarded to".toList) ++
    (if full then " the email".toList else "  the email".toList)
  emailId := answer.1
  currentEvent := "REPLIED"
  dateEventReceived := env.now i
  espProvider := getEmailProviderName env.providerMap env.lower answer.2

/-- The variables of the loop. -/
structure ScanState where
  events : List ReplyEvent := []
  event : Option ReplyEvent := none

/-- The body of the loop, for the mail at position `i`. -/
def scanOne (env : ScanEnv) (isRe : Bool) (s : ScanState)
    (entry : EmailReader (EmailReader ρ) × ℕ) : ScanState :=
  (recognise env.domainName isRe entry.1).elim s fun answer =>
    let event := replyEvent env isRe entry.1.messageRfc882.isSome entry.2 answer
    { events := s.events ++ [event], event := some event }

/-- `forwarded_email`, for the mails that were read: what it hands over to be streamed. The `return`
names `event`, which the loop sets. -/
def forwardedEmail (env : ScanEnv) (isRe : Bool) (mails : List (EmailReader (EmailReader ρ))) :
    Py (String × ReplyEvent) :=
  let s := mails.zipIdx.foldl (scanOne env isRe) {}
  s.event.elim (.error .unboundLocalError) fun event => .ok ("email-event", event)

/-- `ProfileEventInterface.EventWrapper` around it: the events that are streamed; one that is no
list is made one. -/
def scanMailbox (env : ScanEnv) (isRe : Bool) (mails : List (EmailReader (EmailReader ρ))) :
    Py (List (String × ReplyEvent)) := do
  let (stream, event) ← forwardedEmail env isRe mails
  pure [(stream, event)]

/-! ## What message ids are for -/

/-- The domain of a message id: the text behind its last `@`. -/
def domainOf (msgid : MailText) : Option MailText :=
  if '@' ∈ msgid then ((stripAngle msgid).splitOn '@').getLast? else none

/-- A message id of a domain. -/
def OfDomain (domain msgid : MailText) : Prop := domainOf msgid = some domain

instance (domain msgid : MailText) : Decidable (OfDomain domain msgid) := by
  unfold OfDomain
  infer_instance

/-- The message ids that a mail names. -/
def msgidsOf (mail : EmailReader (EmailReader ρ)) : List MailText :=
  mail.references ++ mail.inReplyTo.toList ++
    (mail.messageRfc882.bind EmailReader.messageId).toList

/-- The id of an email comes back from its message id, no id of another domain is taken for ours,
the last reference of ours is found, and a scan reports each answer once. -/
structure RepliesRight (env : ScanEnv) (timeval randval : ℕ) (id : TrackerId) (isRe : Bool)
    (mails : List (EmailReader (EmailReader ρ))) : Prop where
  roundTrip : extractEmailIdFromMsgid
    (some (makeMsgid timeval randval (some id.text) env.domainName)) env.domainName = some id.text
  foreign : ∀ mail ∈ mails, ∀ msgid ∈ msgidsOf mail, ¬ OfDomain env.domainName msgid →
    extractEmailIdFromMsgid (some msgid) env.domainName = none
  ourLast : ∀ mail ∈ mails, (mail.getOurLastMessageReferences env.domainName).bind RefValue.text? =
    (mail.references.filter fun r => OfDomain env.domainName r).getLast?
  scan : ∃ events, scanMailbox env isRe mails = .ok events ∧
    events.map (fun e => e.2.emailId) =
      (mails.filterMap (recognise env.domainName isRe)).map Prod.fst

/-- A message id of another domain that has a domain in front of its own. -/
def Disguised (domain msgid : MailText) : Prop :=
  ¬ OfDomain domain msgid ∧ ∃ left rest, '@' ∉ left ∧
    stripAngle msgid = left ++ '@' :: (domain ++ '@' :: rest)

/-- A domain without `@` and without an angle at its end, no disguised message id, no reference of
ours, and exactly one answer in the mailbox. -/
structure RepliesGuard (env : ScanEnv) (isRe : Bool)
    (mails : List (EmailReader (EmailReader ρ))) : Prop where
  domainAt : '@' ∉ env.domainName
  domainEnd : ∀ c ∈ env.domainName.getLast?, isAngle c = false
  notDisguised : ∀ mail ∈ mails, ∀ msgid ∈ msgidsOf mail, ¬ Disguised env.domainName msgid
  noReference : ∀ mail ∈ mails, ∀ r ∈ mail.references, ¬ OfDomain env.domainName r
  oneAnswer : (mails.filterMap (recognise env.domainName isRe)).length = 1

/-! ## Texts that are cut at a character -/

theorem splitOn_append_cons_of_not_mem {c : Char} {left : MailText} (h : c ∉ left)
    (rest : MailText) : (left ++ c :: rest).splitOn c = left :: rest.splitOn c := by
  rw [List.splitOn_append_cons_self, List.splitOn_eq_singleton h]
  rfl

theorem getLast?_splitOn_append {c : Char} (left : MailText) {last : MailText} (h : c ∉ last) :
    ((left ++ c :: last).splitOn c).getLast? = some last := by
  rw [List.splitOn_append_cons_self, List.splitOn_eq_singleton h, List.getLast?_append]
  rfl

/-- The piece in front of the first `c`. -/
theorem head?_splitOn (c : Char) (s : MailText) :
    (s.splitOn c)[0]? = some (s.takeWhile (· ≠ c)) := by
  by_cases h : c ∈ s
  · obtain ⟨left, rest, rfl, hleft⟩ := List.eq_append_cons_of_mem h
    have hall : ∀ a ∈ left, decide (a ≠ c) = true := fun a ha => by
      simpa using fun e : a = c => hleft (e ▸ ha)
    rw [splitOn_append_cons_of_not_mem hleft, List.takeWhile_append_of_pos hall]
    simp
  · have hall : ∀ a ∈ s, decide (a ≠ c) = true := fun a ha => by
      simpa using fun e : a = c => h (e ▸ ha)
    rw [List.splitOn_eq_singleton h, List.takeWhile_eq_self_iff.mpr hall]
    rfl

theorem takeWhile_eq_self_iff_not_mem (c : Char) (s : MailText) :
    s.takeWhile (· ≠ c) = s ↔ c ∉ s := by
  rw [List.takeWhile_eq_self_iff]
  constructor
  · intro h hc
    simpa using h c hc
  · intro h a ha
    simpa using fun e : a = c => h (e ▸ ha)

/-- The second piece, where the text has two. -/
theorem second_splitOn {left : MailText} {c : Char} (h : c ∉ left) (rest : MailText) :
    ((left ++ c :: rest).splitOn c)[1]? = some (rest.takeWhile (· ≠ c)) := by
  rw [splitOn_append_cons_of_not_mem h]
  exact head?_splitOn c rest

theorem dropWhile_append_stop {test : Char → Bool} {c : Char} (h : test c = false)
    (s rest : MailText) :
    (s ++ c :: rest).dropWhile test = s.dropWhile test ++ c :: rest := by
  induction s with
  | nil => exact List.dropWhile_cons_of_neg (by rw [h]; exact Bool.false_ne_true)
  | cons a s ih =>
    rw [List.cons_append, List.dropWhile_cons, List.dropWhile_cons]
    split
    · exact ih
    · rfl

/-! ## The id in a message id -/

theorem not_mem_natText {c : Char} (h : c.isDigit = false) (n : ℕ) : c ∉ natText n := by
  intro hc
  have hdigits : natText n = Nat.toDigits 10 n := by
    unfold natText
    rw [Nat.toString_eq_repr]
    exact Nat.toList_repr
  rw [hdigits] at hc
  have hdigit := Nat.isDigit_of_mem_toDigits (by omega) (by omega) hc
  rw [hdigit] at h
  cases h

/-- What is in front of the `@`. -/
def msgidLeft (timeval randval : ℕ) (id : MailText) : MailText :=
  natText timeval ++ '.' :: (natText randval ++ '.' :: id)

/-- The end of a text without angles. -/
def stripEnd (s : MailText) : MailText := (s.reverse.dropWhile isAngle).reverse

theorem stripAngle_makeMsgid (timeval randval : ℕ) (id domain : MailText) :
    stripAngle (makeMsgid timeval randval (some id) domain) =
      msgidLeft timeval randval id ++ '@' :: stripEnd domain := by
  have hfront : ∀ rest : MailText, (natText timeval ++ '.' :: rest).dropWhile isAngle =
      natText timeval ++ '.' :: rest := by
    intro rest
    cases htime : natText timeval with
    | nil => rfl
    | cons d ds =>
      have hd : isAngle d = false := by
        have hmem : d ∈ natText timeval := htime ▸ List.mem_cons_self
        unfold isAngle
        rw [Bool.or_eq_false_iff, decide_eq_false_iff_not, decide_eq_false_iff_not]
        exact ⟨fun e => not_mem_natText (c := '<') (by decide) timeval (e ▸ hmem),
          fun e => not_mem_natText (c := '>') (by decide) timeval (e ▸ hmem)⟩
      rw [List.cons_append, List.dropWhile_cons_of_neg (by rw [hd]; exact Bool.false_ne_true)]
  have hstart : (makeMsgid timeval randval (some id) domain).dropWhile isAngle =
      msgidLeft timeval randval id ++ '@' :: (domain ++ ['>']) := by
    show ((natText timeval ++ '.' :: (natText randval ++ '.' :: id)) ++
      '@' :: (domain ++ ['>'])).dropWhile isAngle = _
    rw [List.append_assoc, List.cons_append, hfront]
    unfold msgidLeft
    simp
  unfold stripAngle stripEnd
  rw [hstart, List.reverse_append, List.reverse_cons, List.reverse_append, List.append_assoc,
    List.append_assoc]
  show ((domain.reverse ++ ('@' :: (msgidLeft timeval randval id).reverse)).dropWhile
    isAngle).reverse = _
  rw [dropWhile_append_stop (by decide), List.reverse_append, List.reverse_cons,
    List.reverse_reverse, List.append_assoc]
  rfl

theorem at_not_mem_msgidLeft (timeval randval : ℕ) (id : TrackerId) :
    '@' ∉ msgidLeft timeval randval id.text := by
  have hid : '@' ∉ id.text := fun h => absurd (id.chars _ h) (by decide)
  have htime := not_mem_natText (c := '@') (by decide) timeval
  have hrand := not_mem_natText (c := '@') (by decide) randval
  unfold msgidLeft
  simp [hid, htime, hrand]

theorem stripEnd_eq_self_iff (s : MailText) :
    stripEnd s = s ↔ ∀ c ∈ s.getLast?, isAngle c = false := by
  obtain ⟨r, rfl⟩ : ∃ r : MailText, s = r.reverse := ⟨s.reverse, s.reverse_reverse.symm⟩
  unfold stripEnd
  rw [List.reverse_reverse, List.reverse_inj, List.getLast?_reverse]
  cases r with
  | nil => simp
  | cons a r =>
    cases ha : isAngle a with
    | true =>
      refine iff_of_false ?_ ?_
      · intro heq
        have hlen := congrArg List.length heq
        have hle := (List.dropWhile_sublist (l := r) isAngle).length_le
        rw [List.dropWhile_cons_of_pos ha, List.length_cons] at hlen
        omega
      · intro hall
        rw [hall a rfl] at ha
        cases ha
    | false =>
      refine iff_of_true ?_ ?_
      · rw [List.dropWhile_cons_of_neg (by rw [ha]; exact Bool.false_ne_true)]
      · intro c hc
        rw [← Option.some.inj hc]
        exact ha

/-- An id comes back from its message id exactly for a domain without `@` and without an angle at
its end. -/
theorem roundTrip_iff (timeval randval : ℕ) (id : TrackerId) (domain : MailText) :
    extractEmailIdFromMsgid (some (makeMsgid timeval randval (some id.text) domain)) domain =
        some id.text ↔
      '@' ∉ domain ∧ ∀ c ∈ domain.getLast?, isAngle c = false := by
  have hleft := at_not_mem_msgidLeft timeval randval id
  have hdot : '.' ∉ id.text := fun h => absurd (id.chars _ h) (by decide)
  have hgiven : given (some (makeMsgid timeval randval (some id.text) domain)) =
      some (makeMsgid timeval randval (some id.text) domain) := rfl
  have hat : '@' ∈ makeMsgid timeval randval (some id.text) domain := by
    unfold makeMsgid
    simp
  have hlast : ((msgidLeft timeval randval id.text).splitOn '.').getLast? = some id.text := by
    have hsplit : msgidLeft timeval randval id.text =
        (natText timeval ++ '.' :: natText randval) ++ '.' :: id.text := by
      unfold msgidLeft
      simp
    rw [hsplit]
    exact getLast?_splitOn_append _ hdot
  have hvalue : extractEmailIdFromMsgid (some (makeMsgid timeval randval (some id.text) domain))
      domain = if (stripEnd domain).takeWhile (· ≠ '@') = domain then some id.text else none := by
    unfold extractEmailIdFromMsgid
    rw [hgiven, Option.bind_some]
    dsimp only
    rw [stripAngle_makeMsgid, second_splitOn hleft, splitOn_append_cons_of_not_mem hleft,
      List.headD_cons, hlast]
    simp only [hat, true_and, Option.some.injEq]
  rw [hvalue, ← stripEnd_eq_self_iff]
  constructor
  · intro h
    split at h
    · rename_i hdomain
      have hle := (List.takeWhile_sublist (l := stripEnd domain) (· ≠ '@')).length_le
      have hstrip : (stripEnd domain).length ≤ domain.length := by
        unfold stripEnd
        rw [List.length_reverse]
        exact (List.dropWhile_sublist _).length_le.trans (Nat.le_of_eq List.length_reverse)
      rw [hdomain] at hle
      have hprefix : domain <+: stripEnd domain := by
        conv_lhs => rw [← hdomain]
        exact List.takeWhile_prefix _
      have hself : domain = stripEnd domain := hprefix.eq_of_length (by omega)
      rw [← hself] at hdomain
      exact ⟨(takeWhile_eq_self_iff_not_mem '@' domain).mp hdomain, hself.symm⟩
    · cases h
  · rintro ⟨hat, hend⟩
    rw [hend, (takeWhile_eq_self_iff_not_mem '@' domain).mpr hat, if_pos rfl]

/-! ## Ids of other domains -/

theorem at_mem_stripAngle {s : MailText} (h : '@' ∈ s) : '@' ∈ stripAngle s := by
  obtain ⟨left, rest, rfl, -⟩ := List.eq_append_cons_of_mem h
  have hkeep : ∀ t : MailText, '@' ∈ t → '@' ∈ t.dropWhile isAngle := by
    intro t ht
    obtain ⟨a, b, rfl, -⟩ := List.eq_append_cons_of_mem ht
    rw [dropWhile_append_stop (by decide)]
    simp
  unfold stripAngle
  rw [List.mem_reverse]
  exact hkeep _ (List.mem_reverse.mpr (hkeep _ h))

/-- An id is taken for ours exactly if our domain is its second piece. -/
theorem extract_eq_none_iff (msgid domain : MailText) :
    extractEmailIdFromMsgid (some msgid) domain = none ↔
      ¬ ('@' ∈ msgid ∧ ((stripAngle msgid).splitOn '@')[1]? = some domain) := by
  unfold extractEmailIdFromMsgid
  by_cases hcond : '@' ∈ msgid ∧ ((stripAngle msgid).splitOn '@')[1]? = some domain
  · refine iff_of_false ?_ fun h => h hcond
    have hgiven : given (some msgid) = some msgid := by
      unfold given
      rw [Option.filter_some, if_pos (decide_eq_true (List.ne_nil_of_mem hcond.1))]
    rw [hgiven, Option.bind_some]
    dsimp only
    rw [if_pos hcond, List.getLast?_eq_none_iff]
    exact List.splitOn_ne_nil _ _
  · refine iff_of_true ?_ hcond
    cases hgiven : given (some msgid) with
    | none => rfl
    | some s =>
      obtain rfl := Option.some.inj (Option.filter_eq_some_iff.mp hgiven).1
      rw [Option.bind_some]
      dsimp only
      rw [if_neg hcond]

/-- Our domain is the second piece only of its own ids, and of those that are disguised. -/
theorem ofDomain_or_disguised {domain msgid : MailText} (hat : '@' ∈ msgid)
    (hsecond : ((stripAngle msgid).splitOn '@')[1]? = some domain) :
    OfDomain domain msgid ∨ Disguised domain msgid := by
  obtain ⟨left, rest, hstrip, hleft⟩ := List.eq_append_cons_of_mem (at_mem_stripAngle hat)
  rw [hstrip, second_splitOn hleft, Option.some.injEq] at hsecond
  by_cases hrest : '@' ∈ rest
  · by_cases hours : OfDomain domain msgid
    · exact .inl hours
    · obtain ⟨mid, tail, rfl, hmid⟩ := List.eq_append_cons_of_mem hrest
      have hall : ∀ a ∈ mid, decide (a ≠ '@') = true := fun a ha => by
        simpa using fun e : a = '@' => hmid (e ▸ ha)
      rw [List.takeWhile_append_of_pos hall] at hsecond
      have hmid' : mid = domain := by simpa using hsecond
      exact .inr ⟨hours, left, tail, hleft, by rw [hstrip, hmid']⟩
  · rw [(takeWhile_eq_self_iff_not_mem '@' rest).mpr hrest] at hsecond
    left
    unfold OfDomain domainOf
    rw [if_pos hat, hstrip, getLast?_splitOn_append left hrest, hsecond]

/-- No id of another domain is taken for ours exactly if none is disguised. -/
theorem foreign_iff {domain : MailText} (hdomain : '@' ∉ domain) (msgid : MailText) :
    (¬ OfDomain domain msgid → extractEmailIdFromMsgid (some msgid) domain = none) ↔
      ¬ Disguised domain msgid := by
  rw [extract_eq_none_iff]
  constructor
  · rintro h ⟨hforeign, left, rest, hleft, hstrip⟩
    refine h hforeign ⟨?_, ?_⟩
    · have hat : '@' ∈ stripAngle msgid := by
        rw [hstrip]
        simp
      unfold stripAngle at hat
      exact (List.dropWhile_sublist _).mem (List.mem_reverse.mp
        ((List.dropWhile_sublist _).mem (List.mem_reverse.mp hat)))
    · have hall : ∀ a ∈ domain, decide (a ≠ '@') = true := fun a ha => by
        simpa using fun e : a = '@' => hdomain (e ▸ ha)
      rw [hstrip, second_splitOn hleft, List.takeWhile_append_of_pos hall]
      simp
  · intro h hforeign hcond
    exact (ofDomain_or_disguised hcond.1 hcond.2).elim hforeign h

/-! ## The last reference of ours -/

/-- A list is never the text that it is compared with. -/
theorem getOurLastMessageReferences_eq_none (reader : EmailReader ρ) (ourHost : MailText) :
    reader.getOurLastMessageReferences ourHost = none := by
  unfold EmailReader.getOurLastMessageReferences
  rw [List.find?_eq_none]
  intro r hr
  obtain ⟨text, -, rfl⟩ := List.mem_map.mp hr
  simp

/-- So the last reference of ours is found exactly where there is none. -/
theorem ourLast_iff (reader : EmailReader ρ) (domain : MailText) :
    (reader.getOurLastMessageReferences domain).bind RefValue.text? =
        (reader.references.filter fun r => OfDomain domain r).getLast? ↔
      ∀ r ∈ reader.references, ¬ OfDomain domain r := by
  rw [getOurLastMessageReferences_eq_none, Option.bind_none, eq_comm, List.getLast?_eq_none_iff,
    List.filter_eq_nil_iff]
  exact forall₂_congr fun r _ => not_congr decide_eq_true_iff

/-! ## The scan -/

/-- What the loop leaves: an event for each answer, and the last of them. -/
theorem scan_spec (env : ScanEnv) (isRe : Bool)
    (entries : List (EmailReader (EmailReader ρ) × ℕ)) (s : ScanState) :
    ∃ found : List ReplyEvent,
      found.map ReplyEvent.emailId =
          (entries.filterMap fun e => recognise env.domainName isRe e.1).map Prod.fst ∧
        (entries.foldl (scanOne env isRe) s).event = found.getLast?.or s.event := by
  induction entries generalizing s with
  | nil => exact ⟨[], rfl, rfl⟩
  | cons e entries ih =>
    obtain ⟨found, hfound, hevent⟩ := ih (scanOne env isRe s e)
    rw [List.foldl_cons, hevent, List.filterMap_cons]
    cases hanswer : recognise env.domainName isRe e.1 with
    | none =>
      refine ⟨found, hfound, ?_⟩
      unfold scanOne
      rw [hanswer]
      rfl
    | some answer =>
      refine ⟨replyEvent env isRe e.1.messageRfc882.isSome e.2 answer :: found, ?_, ?_⟩
      · rw [List.map_cons, List.map_cons, hfound]
        rfl
      · unfold scanOne
        rw [hanswer, List.getLast?_cons]
        cases found.getLast? <;> rfl

/-- A scan reports each answer once exactly if there is one. -/
theorem scan_iff (env : ScanEnv) (isRe : Bool) (mails : List (EmailReader (EmailReader ρ))) :
    (∃ events, scanMailbox env isRe mails = .ok events ∧ events.map (fun e => e.2.emailId) =
        (mails.filterMap (recognise env.domainName isRe)).map Prod.fst) ↔
      (mails.filterMap (recognise env.domainName isRe)).length = 1 := by
  obtain ⟨found, hfound, hevent⟩ := scan_spec env isRe mails.zipIdx {}
  have hmails : (mails.zipIdx.filterMap fun e => recognise env.domainName isRe e.1) =
      mails.filterMap (recognise env.domainName isRe) := by
    have hmap : (mails.zipIdx.map Prod.fst).filterMap (recognise env.domainName isRe) =
        mails.zipIdx.filterMap fun e => recognise env.domainName isRe e.1 := List.filterMap_map
    rw [← hmap, List.zipIdx_map_fst]
  rw [hmails] at hfound
  have hlen := congrArg List.length hfound
  rw [List.length_map, List.length_map] at hlen
  rw [← hlen, ← hfound]
  unfold scanMailbox forwardedEmail
  dsimp only
  rw [hevent, Option.or_none]
  cases hlast : found.getLast? with
  | none =>
    rw [List.getLast?_eq_none_iff.mp hlast]
    refine iff_of_false ?_ (by simp)
    rintro ⟨events, hevents, -⟩
    cases hevents
  | some event =>
    constructor
    · rintro ⟨events, hevents, hids⟩
      cases hevents
      have hone := congrArg List.length hids
      rw [List.length_map] at hone
      rw [List.length_map] at hone
      exact hone.symm
    · intro hone
      obtain ⟨only, rfl⟩ := List.length_eq_one_iff.mp hone
      cases hlast
      exact ⟨_, rfl, rfl⟩

/-- A server without a table of providers. -/
def scanServer : ScanEnv where
  providerMap := Dict.empty
  lower s := s
  domainName := "notifyr".toList
  uuid _ := ""
  now _ := ""

/-- The id of an email. -/
def emailE1 : TrackerId where
  text := "e1".toList
  chars := @of_decide_eq_true _ (List.decidableBAll _ "e1".toList) (by decide)

end Notifyr
