import Mathlib.Data.List.Forall2

/-!
# The recipients of contents

`ContactToInfoPipe` (`app/decorators/pipes.py`), with `PointerIterator` (`app/utils/helper.py`) over
objects.

- `PointerIterator.ptr`: a pointer to the object that has the last key; it is an object itself, with
  attributes of its own.
- `ContactToInfoPipe.pipe`: reads `sender_type` and `index` of the pointer, and sets them there.
- `pipe_eq`: so the scheduler that comes out is the one that went in.
- `RecipientsRight`: the recipients are replaced by the addresses of the contacts.
- `recipientsRight_iff`: for which contents this is so.
-/

namespace Notifyr

namespace ContactInfo

/-! ## Objects and pointers -/

/-- The value of an attribute; an object has attributes. -/
inductive AttrVal
  | none
  | int (n : Int)
  | str (s : String)
  | strs (items : List String)
  | obj (attrs : List (String × AttrVal))

/-- `getattr(value, name)`, where there is such an attribute. -/
def AttrVal.getattr? : AttrVal → String → Option AttrVal
  | obj attrs, name => attrs.lookup name
  | _, _ => .none

/-- `PointerIterator.Pointer`, with its attributes. -/
structure Pointer where
  ptr : AttrVal
  dataKey : String
  attrs : List (String × AttrVal)

namespace Pointer

/-- `Pointer(ptr, data_key, object)`. -/
def new (ptr : AttrVal) (dataKey : String) : Pointer where
  ptr := ptr
  dataKey := dataKey
  attrs := [("ptr", ptr), ("data_key", .str dataKey), ("_type", .str "object")]

def getattr? (p : Pointer) (name : String) : Option AttrVal := p.attrs.lookup name

def setattr (p : Pointer) (name : String) (value : AttrVal) : Pointer :=
  { p with attrs := (name, value) :: p.attrs }

/-- `get_val`. -/
def getVal (p : Pointer) : AttrVal := (p.ptr.getattr? p.dataKey).getD .none

end Pointer

/-- `PointerIterator`: the keys that `var` is split into, the last one apart. -/
structure PointerIterator where
  path : List String
  dataKey : String

namespace PointerIterator

/-- The object that the keys lead to. -/
def follow : List String → AttrVal → AttrVal
  | [], ptr => ptr
  | key :: keys, ptr =>
    match ptr with
    | .none => .none
    | ptr => follow keys ((ptr.getattr? key).getD .none)

/-- `ptr(value)`. -/
def ptr (it : PointerIterator) (value : AttrVal) : Pointer :=
  .new (follow it.path value) it.dataKey

end PointerIterator

/-! ## The pipe -/

/-- An entry of `_errors`. -/
structure ContentError where
  message : String
  index : AttrVal
  key : AttrVal

/-- What the pipe raises. -/
inductive PipeError
  | contactNotExists (id : String)
  | contactMissingInfoKey (infoKey : String)
  | attributeError

/-- `SchedulerModel`, as far as the pipe reads it; the errors are kept under their indices. -/
structure SchedulerModel where
  filterError : Bool
  content : List AttrVal
  errors : List (AttrVal × ContentError)

/-- What the pipe asks for: the summary of a contact, and the subscriptions to a content with the
contact that each one has. -/
structure ContactSource where
  summary : String → Option (String → Option String)
  subscriptions : AttrVal → List (Option String)

/-- `ContactToInfoPipe`. -/
structure ContactToInfoPipe extends PointerIterator where
  infoKey : String

namespace ContactToInfoPipe

/-- `get_info_key`. -/
def getInfoKey (src : ContactSource) (infoKey val : String) (filterError : Bool) :
    Except PipeError (Option String) :=
  match src.summary val with
  | none => if filterError then .ok none else .error (.contactNotExists val)
  | some contact =>
    match contact infoKey with
    | none => if filterError then .ok none else .error (.contactMissingInfoKey infoKey)
    | some info => .ok (some info)

/-- The loop over a list of contacts: the addresses, and the contacts that have none. -/
def getInfoKeys (src : ContactSource) (infoKey : String) (filterError : Bool) :
    List String → Except PipeError (List String × List String)
  | [] => .ok ([], [])
  | v :: vs => do
    let t ← getInfoKey src infoKey v filterError
    let (temp, errors) ← getInfoKeys src infoKey filterError vs
    match t with
    | none => return (temp, if filterError then v :: errors else errors)
    | some t => return (t :: temp, errors)

def noContact : String := "No contact associated with this content subscriptions"

def noInfo : String :=
  "Could not get info for the contact, might not exists or might not have set the needed info"

/-- What the loop over the contents changes. -/
structure PipeState where
  filtered : List AttrVal
  errors : List (AttrVal × ContentError)

/-- `getattr(ptr, 'sender_type', 'raw') == name`. -/
def senderIs (ptr : Pointer) (name : String) : Bool :=
  match (ptr.getattr? "sender_type").getD (.str "raw") with
  | .str s => s == name
  | _ => false

/-- A content that is kept in the mode that filters. -/
def keep (filterError : Bool) (s : PipeState) (content : AttrVal) : PipeState :=
  if filterError then { s with filtered := s.filtered ++ [content] } else s

/-- The end of the body: the recipients are set, on the pointer. -/
def setRecipients (ptr : Pointer) (val contactId : AttrVal) : Pointer :=
  (ptr.setattr ptr.dataKey val).setattr "_contact" contactId

/-- The part of the body that looks up the contacts `val`. -/
def resolve (src : ContactSource) (infoKey : String) (filterError : Bool) (content : AttrVal)
    (ptr : Pointer) (index val : AttrVal) (s : PipeState) :
    Except PipeError (Pointer × PipeState) := do
  match val with
  | .str contactId =>
    match ← getInfoKey src infoKey contactId filterError with
    | none =>
      let errors :=
        if filterError then (index, ⟨noInfo, index, .str contactId⟩) :: s.errors else s.errors
      return (ptr, { s with errors })
    | some info =>
      return (setRecipients ptr (.str info) (.str contactId), keep filterError s content)
  | .strs contactIds =>
    let (temp, errors) ← getInfoKeys src infoKey filterError contactIds
    let errors :=
      if errors ≠ [] then (index, ⟨noInfo, index, .strs contactIds⟩) :: s.errors else s.errors
    return (setRecipients ptr (.strs temp) (.strs contactIds),
      keep filterError { s with errors } content)
  | val => return (setRecipients ptr val .none, keep filterError s content)

/-- The body of the loop. -/
def pipeContent (pipe : ContactToInfoPipe) (src : ContactSource) (filterError : Bool)
    (s : PipeState) (content : AttrVal) : Except PipeError PipeState := do
  let ptr := pipe.ptr content
  if senderIs ptr "raw" then return keep filterError s content
  else
    let val := ptr.getVal
    match ptr.getattr? "index" with
    | none => .error .attributeError
    | some index =>
      if senderIs ptr "subs" then
        let contactIds := (src.subscriptions val).filterMap id
        if contactIds = [] then
          return { s with errors := (index, ⟨noContact, index, val⟩) :: s.errors }
        else
          let ptr := ptr.setattr "sender_type" (.str "raw")
          let (_, s) ← resolve src pipe.infoKey filterError content ptr index (.strs contactIds) s
          return s
      else
        let (_, s) ← resolve src pipe.infoKey filterError content ptr index val s
        return s

/-- `pipe`. -/
def pipe (pipe : ContactToInfoPipe) (src : ContactSource) (scheduler : SchedulerModel) :
    Except PipeError SchedulerModel := do
  let s ← scheduler.content.foldlM (pipeContent pipe src scheduler.filterError)
    ⟨[], scheduler.errors⟩
  return { scheduler with
    content := if s.filtered ≠ [] then s.filtered else scheduler.content
    errors := s.errors }

end ContactToInfoPipe

/-! ## What the pipe is for -/

/-- The recipients that a value names. -/
def AttrVal.recipients : AttrVal → List String
  | str s => [s]
  | strs items => items
  | none | int _ | obj _ => []

section Spec

variable (pipe : ContactToInfoPipe) (src : ContactSource)

/-- `sender_type` of a content. -/
def senderType (content : AttrVal) : String :=
  match (PointerIterator.follow pipe.path content).getattr? "sender_type" with
  | some (.str s) => s
  | _ => "raw"

/-- The value of a content at the key of the pipe. -/
def valueAt (content : AttrVal) : AttrVal :=
  ((PointerIterator.follow pipe.path content).getattr? pipe.dataKey).getD .none

/-- The contacts of a content that is addressed by contact or by subscription. -/
def contactsOf (content : AttrVal) : List String :=
  if senderType pipe content = "contact" then (valueAt pipe content).recipients
  else if senderType pipe content = "subs" then
    (src.subscriptions (valueAt pipe content)).filterMap id
  else []

/-- Whether the content has contacts to be replaced. -/
def Addressed (content : AttrVal) : Prop :=
  senderType pipe content = "contact" ∨ senderType pipe content = "subs"

instance (content : AttrVal) : Decidable (Addressed pipe content) := by
  unfold Addressed
  infer_instance

/-- The address of a contact. -/
def address (contact : String) : Option String :=
  (src.summary contact).bind fun info => info pipe.infoKey

def addresses (content : AttrVal) : List String :=
  (contactsOf pipe src content).filterMap (address pipe src)

def unresolved (content : AttrVal) : List String :=
  (contactsOf pipe src content).filter fun contact => (address pipe src contact).isNone

/-- What a content has become: its recipients are the addresses, or it is raw and the same. -/
def Replaced (content content' : AttrVal) : Prop :=
  if Addressed pipe content then (valueAt pipe content').recipients = addresses pipe src content
  else content' = content

/-- The contact is named by the error that is kept under the index of the content. -/
def Reported (errors : List (AttrVal × ContentError)) (content : AttrVal) (contact : String) :
    Prop :=
  ∃ index, content.getattr? "index" = some index ∧ ∃ before error after,
    errors = before ++ (index, error) :: after ∧ (∀ e ∈ before, e.1 ≠ index) ∧
      contact ∈ error.key.recipients

/-- The error for a contact without an address. -/
def missing (contact : String) : PipeError :=
  match src.summary contact with
  | none => .contactNotExists contact
  | some _ => .contactMissingInfoKey pipe.infoKey

/-- The content is left in. -/
def Kept (content : AttrVal) : Prop := Addressed pipe content → addresses pipe src content ≠ []

instance (content : AttrVal) : Decidable (Kept pipe src content) := by
  unfold Kept
  infer_instance

/-- The pipe replaces the recipients, and leaves out and reports, or raises. -/
def RecipientsRight (scheduler : SchedulerModel) : Prop :=
  if scheduler.filterError then
    ∃ scheduler', pipe.pipe src scheduler = .ok scheduler' ∧
      List.Forall₂ (Replaced pipe src)
        (scheduler.content.filter fun content => decide (Kept pipe src content))
        scheduler'.content ∧
      ∀ content ∈ scheduler.content, ∀ contact ∈ unresolved pipe src content,
        Reported scheduler'.errors content contact
  else
    match (scheduler.content.flatMap (unresolved pipe src)).head? with
    | some contact => pipe.pipe src scheduler = .error (missing pipe src contact)
    | none => ∃ scheduler', pipe.pipe src scheduler = .ok scheduler' ∧
      List.Forall₂ (Replaced pipe src) scheduler.content scheduler'.content

/-- The contents whose recipients are replaced by themselves. -/
structure RecipientsGuard (scheduler : SchedulerModel) : Prop where
  contact : ∀ content ∈ scheduler.content, senderType pipe content = "contact" →
    ∀ contact ∈ (valueAt pipe content).recipients, address pipe src contact = some contact
  subs : ∀ content ∈ scheduler.content, senderType pipe content = "subs" →
    addresses pipe src content = (valueAt pipe content).recipients ∧
    ∀ contact ∈ unresolved pipe src content,
      scheduler.filterError = true ∧ Reported scheduler.errors content contact
  some : scheduler.filterError = true → ∀ content ∈ scheduler.content,
    Addressed pipe content → (valueAt pipe content).recipients ≠ []

end Spec

/-! ## What the pipe does -/

section Pipe

variable {pipe : ContactToInfoPipe} {src : ContactSource}

theorem foldlM_pipeContent (filterError : Bool) (contents : List AttrVal)
    (s : ContactToInfoPipe.PipeState) :
    contents.foldlM (ContactToInfoPipe.pipeContent pipe src filterError) s =
      .ok { s with filtered := if filterError then s.filtered ++ contents else s.filtered } := by
  induction contents generalizing s with
  | nil => simp [pure, Except.pure]
  | cons content contents ih =>
    have hstep : ContactToInfoPipe.pipeContent pipe src filterError s content =
        .ok (ContactToInfoPipe.keep filterError s content) := rfl
    rw [List.foldlM_cons, hstep]
    show contents.foldlM _ (ContactToInfoPipe.keep filterError s content) = _
    rw [ih]
    unfold ContactToInfoPipe.keep
    cases filterError with
    | true => simp
    | false => simp

/-- Every content passes for raw, and the scheduler stays as it is. -/
theorem pipe_eq (scheduler : SchedulerModel) : pipe.pipe src scheduler = .ok scheduler := by
  obtain ⟨filterError, content, errors⟩ := scheduler
  unfold ContactToInfoPipe.pipe
  rw [foldlM_pipeContent]
  cases filterError with
  | false => rfl
  | true =>
    cases content with
    | nil => rfl
    | cons item items => rfl

/-- A list of contacts is that of their addresses if each is its own. -/
theorem filterMap_eq_self_iff {α : Type} (f : α → Option α) (l : List α) :
    l.filterMap f = l ↔ ∀ a ∈ l, f a = some a := by
  constructor
  · intro h
    induction l with
    | nil => simp
    | cons a l ih =>
      cases ha : f a with
      | none =>
        rw [List.filterMap_cons_none ha] at h
        have hle := List.length_filterMap_le f l
        rw [h, List.length_cons] at hle
        omega
      | some b =>
        rw [List.filterMap_cons_some ha] at h
        obtain ⟨rfl, htail⟩ := List.cons.inj h
        exact List.forall_mem_cons.2 ⟨ha, ih htail⟩
  · intro h
    rw [List.filterMap_congr (g := some) h, List.filterMap_some]

/-- Nothing is left out of a list that is related to what is left of it. -/
theorem forall₂_filter_self_iff {α : Type} {R : α → α → Prop} {p : α → Bool} {l : List α} :
    List.Forall₂ R (l.filter p) l ↔ (∀ a ∈ l, p a = true) ∧ ∀ a ∈ l, R a a := by
  constructor
  · intro h
    have hall : l.filter p = l := List.filter_sublist.eq_of_length h.length_eq
    rw [hall, List.forall₂_same] at h
    exact ⟨List.filter_eq_self.1 hall, h⟩
  · rintro ⟨hall, h⟩
    rw [List.filter_eq_self.2 hall, List.forall₂_same]
    exact h

theorem replaced_self_iff (content : AttrVal) : Replaced pipe src content content ↔
    (Addressed pipe content →
      addresses pipe src content = (valueAt pipe content).recipients) := by
  unfold Replaced
  split
  · simp_all [eq_comm]
  · simp_all

/-- The contacts of a content that is addressed by contact are its recipients. -/
theorem addresses_of_contact {content : AttrVal} (h : senderType pipe content = "contact") :
    addresses pipe src content = (valueAt pipe content).recipients ↔
      ∀ contact ∈ (valueAt pipe content).recipients, address pipe src contact = some contact := by
  unfold addresses contactsOf
  rw [if_pos h, filterMap_eq_self_iff]

/-- A contact without an address is one of a subscription, where the others are their own. -/
theorem subs_of_unresolved {content : AttrVal} {contact : String}
    (hself : senderType pipe content = "contact" →
      ∀ contact ∈ (valueAt pipe content).recipients, address pipe src contact = some contact)
    (h : contact ∈ unresolved pipe src content) : senderType pipe content = "subs" := by
  obtain ⟨hmem, hnone⟩ := List.mem_filter.1 h
  unfold contactsOf at hmem
  split at hmem
  · rename_i hcontact
    rw [hself hcontact contact hmem] at hnone
    cases hnone
  · split at hmem
    · assumption
    · cases hmem

/-- Every content has become what it should, being what it was. -/
theorem forall_replaced_self_iff (contents : List AttrVal) :
    (∀ content ∈ contents, Replaced pipe src content content) ↔
      (∀ content ∈ contents, senderType pipe content = "contact" →
        ∀ contact ∈ (valueAt pipe content).recipients, address pipe src contact = some contact) ∧
      ∀ content ∈ contents, senderType pipe content = "subs" →
        addresses pipe src content = (valueAt pipe content).recipients := by
  simp only [replaced_self_iff]
  constructor
  · intro h
    exact ⟨fun content hmem hcontact => (addresses_of_contact hcontact).1
      (h content hmem (.inl hcontact)), fun content hmem hsubs => h content hmem (.inr hsubs)⟩
  · rintro ⟨hcontact, hsubs⟩ content hmem (h | h)
    · exact (addresses_of_contact h).2 (hcontact content hmem h)
    · exact hsubs content hmem h

theorem recipientsRight_filter {scheduler : SchedulerModel} (h : scheduler.filterError = true) :
    RecipientsRight pipe src scheduler ↔
      (∀ content ∈ scheduler.content, Kept pipe src content) ∧
      (∀ content ∈ scheduler.content, Replaced pipe src content content) ∧
      ∀ content ∈ scheduler.content, ∀ contact ∈ unresolved pipe src content,
        Reported scheduler.errors content contact := by
  unfold RecipientsRight
  rw [if_pos h, pipe_eq]
  constructor
  · rintro ⟨scheduler', hpipe, hforall, hreported⟩
    cases hpipe
    obtain ⟨hkept, hreplaced⟩ := forall₂_filter_self_iff.1 hforall
    exact ⟨fun content hmem => of_decide_eq_true (hkept content hmem), hreplaced, hreported⟩
  · rintro ⟨hkept, hreplaced, hreported⟩
    exact ⟨scheduler, rfl, forall₂_filter_self_iff.2
      ⟨fun content hmem => decide_eq_true (hkept content hmem), hreplaced⟩, hreported⟩

theorem recipientsRight_raise {scheduler : SchedulerModel} (h : scheduler.filterError = false) :
    RecipientsRight pipe src scheduler ↔
      (∀ content ∈ scheduler.content, unresolved pipe src content = []) ∧
      ∀ content ∈ scheduler.content, Replaced pipe src content content := by
  unfold RecipientsRight
  rw [if_neg (by simp [h]), pipe_eq, ← List.flatMap_eq_nil_iff]
  cases hlist : scheduler.content.flatMap (unresolved pipe src) with
  | nil =>
    simp only [List.head?_nil, Except.ok.injEq, exists_eq_left', List.forall₂_same, true_and]
  | cons contact contacts => simp

/-- **The recipients are replaced** exactly if each content is raw, or has recipients that are their
own addresses. -/
theorem recipientsRight_iff (pipe : ContactToInfoPipe) (src : ContactSource)
    (scheduler : SchedulerModel) :
    RecipientsRight pipe src scheduler ↔ RecipientsGuard pipe src scheduler := by
  cases hfilter : scheduler.filterError with
  | true =>
    rw [recipientsRight_filter hfilter, forall_replaced_self_iff]
    constructor
    · rintro ⟨hkept, ⟨hcontact, hsubs⟩, hreported⟩
      refine ⟨hcontact, fun content hmem h => ⟨hsubs content hmem h, fun contact hunresolved =>
        ⟨hfilter, hreported content hmem contact hunresolved⟩⟩, ?_⟩
      rintro - content hmem (h | h)
      · rw [← (addresses_of_contact h).2 (hcontact content hmem h)]
        exact hkept content hmem (.inl h)
      · rw [← hsubs content hmem h]
        exact hkept content hmem (.inr h)
    · intro hguard
      refine ⟨?_, ⟨hguard.contact, fun content hmem h => (hguard.subs content hmem h).1⟩, ?_⟩
      · rintro content hmem (h | h)
        · rw [(addresses_of_contact h).2 (hguard.contact content hmem h)]
          exact hguard.some hfilter content hmem (.inl h)
        · rw [(hguard.subs content hmem h).1]
          exact hguard.some hfilter content hmem (.inr h)
      · intro content hmem contact hunresolved
        have hsubs := subs_of_unresolved (hguard.contact content hmem) hunresolved
        exact ((hguard.subs content hmem hsubs).2 contact hunresolved).2
  | false =>
    rw [recipientsRight_raise hfilter, forall_replaced_self_iff]
    constructor
    · rintro ⟨hunresolved, hcontact, hsubs⟩
      refine ⟨hcontact, fun content hmem h => ⟨hsubs content hmem h, ?_⟩, by simp [hfilter]⟩
      rw [hunresolved content hmem]
      simp
    · intro hguard
      refine ⟨fun content hmem => List.eq_nil_iff_forall_not_mem.2 fun contact hunresolved => ?_,
        hguard.contact, fun content hmem h => (hguard.subs content hmem h).1⟩
      have hsubs := subs_of_unresolved (hguard.contact content hmem) hunresolved
      have htrue := ((hguard.subs content hmem hsubs).2 contact hunresolved).1
      rw [hfilter] at htrue
      cases htrue

end Pipe

/-- The pipe of the routes for messages. -/
def phonePipe : ContactToInfoPipe := ⟨⟨[], "to"⟩, "phone"⟩

/-- Every contact has a phone number. -/
def phoneBook : ContactSource := ⟨fun _ => some fun _ => some "+1", fun _ => []⟩

/-- A message to a contact is left with the id of the contact for its recipient. -/
theorem not_recipientsRight_contact : ¬ RecipientsRight phonePipe phoneBook ⟨true,
    [.obj [("index", .int 0), ("sender_type", .str "contact"), ("to", .strs ["c"])]], []⟩ := by
  intro hright
  obtain ⟨-, hreplaced, -⟩ := (recipientsRight_filter rfl).1 hright
  have hself := (replaced_self_iff _).1 (hreplaced _ List.mem_cons_self) (by decide)
  exact absurd hself (by decide)

end ContactInfo

end Notifyr
