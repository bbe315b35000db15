import Rendezvous.Proofs.Visit

/-!
# What is known of a method before a breakpoint is set in it

A class-prepare sets one breakpoint at most, and it is the last thing it asks for. By then the calls
before it vouch for the method: they show a class with the signature of the marker's class, the
method in the table of that class, and the name and signature of the marker method for it.
-/

namespace Rendezvous

open Text (utf8)

namespace Call

def setsBreakpoint : Call → Bool
  | setBreakpoint _ _ _ => true
  | _ => false

/-- Whether no failure was replied. -/
def succeeds (call : Call) : Bool := call.failure?.isNone

end Call

/-- Calls among which no breakpoint is set. -/
def OnlyReads (calls : List Call) : Prop := ∀ call ∈ calls, call.setsBreakpoint = false

/-- The calls show, in this order, a class with the marker's class signature, the method among those
of the class, and its name and signature, which are those of the marker method. -/
def Vouched (marker : Marker) (method : MethodId) (calls : List Call) : Prop :=
  ∃ klass text table lent,
    [.getClassSignature klass (.ok text), .getClassMethods klass (.ok table),
      .getMethodName method (.ok lent)].Sublist calls ∧
    text.bytes? = some (utf8 marker.classSignature) ∧ method ∈ table.methods ∧
    lent.name.bytes? = some (utf8 marker.methodName) ∧
    lent.signature.bytes? = some (utf8 Marker.methodSignature)

section

variable {marker : Marker} {method : MethodId} {methods : List MethodId} {calls more : List Call}
  {found : Option MethodId}

theorem OnlyReads.append (h : OnlyReads calls) (h' : OnlyReads more) : OnlyReads (calls ++ more) :=
  List.forall_mem_append.mpr ⟨h, h'⟩

theorem OnlyReads.sublist (h : OnlyReads calls) (hs : more.Sublist calls) : OnlyReads more :=
  fun call hmem => h call (hs.subset hmem)

theorem OnlyReads.filter_eq (h : OnlyReads calls) : calls.filter Call.setsBreakpoint = [] := by
  rw [List.filter_eq_nil_iff]
  intro call hmem
  rw [h call hmem]
  exact Bool.false_ne_true

theorem Vouched.mono (h : Vouched marker method calls) (hs : calls.Sublist more) :
    Vouched marker method more := by
  obtain ⟨klass, text, table, lent, hsub, hrest⟩ := h
  exact ⟨klass, text, table, lent, hsub.trans hs, hrest⟩

/-- Only calls that succeed vouch. -/
theorem Vouched.of_succeeding (h : Vouched marker method calls)
    (hs : more.filter Call.succeeds = calls.filter Call.succeeds) :
    Vouched marker method more := by
  obtain ⟨klass, text, table, lent, hsub, hrest⟩ := h
  have hfiltered := hsub.filter Call.succeeds
  rw [← hs] at hfiltered
  exact ⟨klass, text, table, lent, hfiltered.trans List.filter_sublist, hrest⟩

/-! ## The calls of a class-prepare -/

theorem givingBack_onlyReads (address : Address) (reply : Reply Unit) :
    OnlyReads (givingBack address reply) := by
  cases address <;> simp [OnlyReads, givingBack, Call.setsBreakpoint]

theorem MethodRead.calls_onlyReads (read : MethodRead) : OnlyReads read.calls := by
  obtain ⟨method, result⟩ := read
  cases result with
  | failed failure => simp [calls, OnlyReads, Call.setsBreakpoint]
  | read lent nameBack signatureBack =>
    have hback := (givingBack_onlyReads (.ofBuffer? lent.name) nameBack).append
      (givingBack_onlyReads (.ofBuffer? lent.signature) signatureBack)
    exact List.forall_mem_cons.mpr ⟨rfl, hback⟩

theorem reads_onlyReads (reads : List MethodRead) : OnlyReads (reads.flatMap MethodRead.calls) := by
  intro call hmem
  obtain ⟨read, -, hcall⟩ := List.mem_flatMap.mp hmem
  exact read.calls_onlyReads call hcall

theorem Search.onlyReads (h : Search marker methods calls found) : OnlyReads calls := by
  cases h with
  | exhausted reads _ => exact reads_onlyReads reads
  | found passed last _ _ _ => exact (reads_onlyReads passed).append last.calls_onlyReads

theorem signatureCalls_onlyReads (klass : ClassId) (text : LentText) (back : Reply Unit) :
    OnlyReads (signatureCalls klass text back) :=
  List.forall_mem_cons.mpr ⟨rfl, givingBack_onlyReads _ back⟩

theorem tableCalls_onlyReads (klass : ClassId) (table : LentTable) {names : List Call}
    (h : OnlyReads names) (back : Reply Unit) : OnlyReads (tableCalls klass table names back) :=
  List.forall_mem_cons.mpr ⟨rfl, h.append (givingBack_onlyReads _ back)⟩

theorem Search.named (h : Search marker methods calls (some method)) :
    method ∈ methods ∧ ∃ lent, .getMethodName method (.ok lent) ∈ calls ∧
      lent.name.bytes? = some (utf8 marker.methodName) ∧
      lent.signature.bytes? = some (utf8 Marker.methodSignature) := by
  cases h with
  | found passed last rest _ hlast =>
    refine ⟨by simp, ?_⟩
    obtain ⟨method, result⟩ := last
    cases result with
    | failed failure => cases hlast
    | read lent nameBack signatureBack => exact ⟨lent, by simp [MethodRead.calls], hlast⟩

theorem Search.vouched (h : Search marker methods calls (some method)) {text : LentText}
    (ht : text.bytes? = some (utf8 marker.classSignature)) {table : LentTable}
    (hm : methods = table.methods) (klass : ClassId) (back tableBack : Reply Unit) :
    Vouched marker method
      (signatureCalls klass text back ++ tableCalls klass table calls tableBack) := by
  obtain ⟨hmem, lent, hnamed, hname, hsignature⟩ := h.named
  refine ⟨klass, text, table, lent, ?_, ht, hm ▸ hmem, hname, hsignature⟩
  have hsig : [Call.getClassSignature klass (.ok text)].Sublist (signatureCalls klass text back) :=
    List.singleton_sublist.mpr List.mem_cons_self
  have htable : [Call.getClassMethods klass (.ok table), .getMethodName method (.ok lent)].Sublist
      (tableCalls klass table calls tableBack) :=
    (List.singleton_sublist.mpr (List.mem_append_left _ hnamed)).cons_cons _
  exact hsig.append htable

/-- The outcome of setting a breakpoint, by the reply. -/
def Outcome.ofReply (method : MethodId) : Reply Unit → Outcome
  | .ok _ => .installed method
  | .error failure => .installFailed method failure

/-- How the calls of a class-prepare go along with its outcome: they set no breakpoint, or they set
one at the end, in a method for which the calls before vouch. -/
inductive Marks (marker : Marker) : List Call → Outcome → Prop where
  | nothing {calls : List Call} {outcome : Outcome} :
      OnlyReads calls → outcome.attempted? = none → Marks marker calls outcome
  | breakpoint {asked : List Call} {method : MethodId} (reply : Reply Unit) :
      OnlyReads asked → Vouched marker method asked →
      Marks marker (asked ++ [.setBreakpoint method Marker.location reply])
        (.ofReply method reply)

theorem Visit.marks {klass : ClassId} {outcome : Outcome} (h : Visit klass marker calls outcome) :
    Marks marker calls outcome := by
  cases h with
  | signatureUnreadable failure =>
    exact .nothing (by simp [OnlyReads, Call.setsBreakpoint]) rfl
  | notTarget text back _ => exact .nothing (signatureCalls_onlyReads klass text back) rfl
  | tableUnreadable text back failure _ =>
    have htable : OnlyReads [.getClassMethods klass (.error failure)] := by
      simp [OnlyReads, Call.setsBreakpoint]
    exact .nothing ((signatureCalls_onlyReads klass text back).append htable) rfl
  | methodNotFound text back table names tableBack _ hs =>
    exact .nothing ((signatureCalls_onlyReads klass text back).append
      (tableCalls_onlyReads klass table hs.onlyReads tableBack)) rfl
  | installed text back table names tableBack method ht hs =>
    exact .breakpoint (.ok ()) ((signatureCalls_onlyReads klass text back).append
      (tableCalls_onlyReads klass table hs.onlyReads tableBack)) (hs.vouched ht rfl klass back tableBack)
  | installFailed text back table names tableBack method failure ht hs =>
    exact .breakpoint (.error failure) ((signatureCalls_onlyReads klass text back).append
      (tableCalls_onlyReads klass table hs.onlyReads tableBack)) (hs.vouched ht rfl klass back tableBack)

/-! ## The calls that are made -/

theorem Without.append {D : Call → Prop} {made : List Call} (h : Without D made (calls ++ more)) :
    ∃ first second, made = first ++ second ∧ Without D first calls ∧ Without D second more := by
  induction calls generalizing made with
  | nil => exact ⟨[], made, rfl, .nil, h⟩
  | cons call rest ih =>
    cases h with
    | keep _ hrest =>
      obtain ⟨first, second, rfl, hf, hs⟩ := ih hrest
      exact ⟨call :: first, second, rfl, .keep call hf, hs⟩
    | drop hd hrest =>
      obtain ⟨first, second, rfl, hf, hs⟩ := ih hrest
      exact ⟨first, second, rfl, .drop hd hf, hs⟩

/-- What is attempted and not made fails. -/
theorem Dialogue.without_failed {σ : Type} {machine : Machine σ} {env : Env} {w w' : World σ}
    (h : Dialogue machine env w calls w') :
    ∃ made, Course machine w made w' ∧ Without (fun call => call.succeeds = false) made calls := by
  have unmade : ∀ call (s : σ), True → Unmade machine env call s → call.succeeds = false := by
    intro call s _ hu
    cases hu with
    | invalid _ hf => simp [Call.succeeds, hf]
    | missing _ _ _ hf => simp [Call.succeeds, hf]
  exact h.made (fun _ _ _ _ => id) unmade trivial

end

end Rendezvous
