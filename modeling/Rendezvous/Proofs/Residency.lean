import Rendezvous.Proofs.TidyHosts

/-!
# How much is live at once

On a machine whose releases take effect, few buffers are live at any time while a prepared class is
looked at, however long its table of methods is: a buffer goes back as soon as it has been read.
Only the method table stays while names are asked for, and next to it the name and the signature of
one method at most.
-/

namespace Rendezvous

variable {σ : Type}

/-- Releases take effect: as long as the machine is in a state that its calls keep, it can take
buffers back, and after each call those are live that are owed by the account of the call. What is
replied to a release does not matter. -/
structure Machine.TakesEffect (machine : Machine σ) (K : σ → Prop) (live : σ → List Nat) :
    Prop where
  keeps : machine.Keeps K
  takesBack : ∀ s, K s → TakesBack machine s
  live : ∀ call s s' owed, K s → machine.Answers call s s' → call.owed (live s) = some owed →
    (live s').Perm owed

/-! ## Live buffers along a dialogue -/

section

variable {machine : Machine σ} {env : Env} {K : σ → Prop} {live : σ → List Nat} {w w' : World σ}
  {calls : List Call} {call : Call} {owed owed' : List Nat}

/-- The account does not depend on the order of what is owed. -/
theorem Call.owed_perm {a b a' : List Nat} (h : a.Perm b) (ha : call.owed a = some a') :
    ∃ b', call.owed b = some b' ∧ a'.Perm b' := by
  cases hr : call.returned? with
  | none =>
    rw [Call.owed_of_lent a hr, Option.some.injEq] at ha
    subst ha
    exact ⟨_, Call.owed_of_lent b hr, h.append_left call.lent⟩
  | some address =>
    cases call with
    | deallocate given reply =>
      cases given with
      | buffer number =>
        by_cases hmem : number ∈ a
        · simp only [Call.owed, if_pos hmem, Option.some.injEq] at ha
          subst ha
          exact ⟨_, if_pos (h.mem_iff.mp hmem), h.erase number⟩
        · simp [Call.owed, hmem] at ha
      | _ => cases ha
    | _ => cases hr

/-- Whether a call is a release. -/
def Call.givesBack (call : Call) : Bool := call.returned?.isSome

/-- As long as the machine can take buffers back, every release reaches it. -/
theorem Unmade.no_release {s : σ} (hu : Unmade machine .live call s) (hs : TakesBack machine s) :
    call.givesBack = false := by
  cases call with
  | deallocate address reply =>
    cases hu with
    | invalid hne _ => exact absurd rfl hne
    | missing _ hservice hp _ =>
      cases hservice
      rw [show machine.provides .deallocate s = true from hs] at hp
      cases hp
  | _ => rfl

namespace Machine.TakesEffect

theorem attempt (h : machine.TakesEffect K live) (ha : Attempt machine .live call w w')
    (hw : K w.machine) (hlive : (live w.machine).Perm owed) (howed : call.owed owed = some owed') :
    K w'.machine ∧ (live w'.machine).Perm owed' := by
  cases ha with
  | made _ _ _ hans =>
    obtain ⟨owed₁, hcall, hperm⟩ := Call.owed_perm hlive.symm howed
    exact ⟨h.keeps _ _ _ hans hw, (h.live _ _ _ _ hw hans hcall).trans hperm.symm⟩
  | unmade hu =>
    rw [hu.owed_eq (h.takesBack _ hw) owed, Option.some.injEq] at howed
    exact ⟨hw, howed ▸ hlive⟩

/-- What is live after a dialogue is what is owed after its calls. -/
theorem dialogue (h : machine.TakesEffect K live) (hd : Dialogue machine .live w calls w')
    (hw : K w.machine) (hlive : (live w.machine).Perm owed)
    (howed : owedAfter owed calls = some owed') : (live w'.machine).Perm owed' := by
  induction hd generalizing owed with
  | silence w =>
    cases howed
    exact hlive
  | attempt ha _ ih =>
    rw [owedAfter_cons] at howed
    obtain ⟨owed₁, hcall, hrest⟩ := Option.bind_eq_some_iff.mp howed
    obtain ⟨hw₁, hlive₁⟩ := h.attempt ha hw hlive hcall
    exact ih hw₁ hlive₁ hrest
  | record level component text _ ih => exact ih hw hlive howed

end Machine.TakesEffect

end

/-! ## Sparse calls -/

/-- What may be live when a call is made after others: nothing, but for the method table while names
are asked for. -/
def Call.Alone (past : List Call) : Call → List Nat → Prop
  | .getMethodName _ _, live => ∃ klass table, .getClassMethods klass (.ok table) ∈ past ∧
      live = (table.buffer.map Buffer.number).toList
  | .deallocate _ _, _ => True
  | _, live => live = []

/-- Calls after which, and between which, three buffers are owed at most, and before each of which
nothing is owed that must not be. -/
def Sparse (past : List Call) (owed : List Nat) : List Call → Prop
  | [] => owed.length ≤ 3
  | call :: rest => owed.length ≤ 3 ∧ call.Alone past owed ∧
      ∃ owed', call.owed owed = some owed' ∧ Sparse (past ++ [call]) owed' rest

section

variable {past calls more before after names : List Call} {call : Call} {owed live : List Nat}
  {klass : ClassId} {marker : Marker}

/-- A table of methods is one buffer at most. -/
theorem Call.lent_table (klass : ClassId) (table : LentTable) :
    (Call.getClassMethods klass (.ok table)).lent.length ≤ 1 := by
  cases hb : table.buffer <;> simp [Call.lent, hb]

theorem Call.Alone.of_perm (h : call.Alone past owed) (hp : live.Perm owed) :
    call.Alone past live := by
  cases call with
  | getMethodName method reply =>
    obtain ⟨klass, table, hmem, rfl⟩ := h
    refine ⟨klass, table, hmem, ?_⟩
    cases hb : table.buffer <;> simpa [Call.lent, hb] using hp
  | deallocate address reply => trivial
  | _ =>
    obtain rfl : owed = [] := h
    exact hp.eq_nil

namespace Sparse

theorem append (h : Sparse past owed calls) (hs : Settled calls)
    (h' : Sparse (past ++ calls) owed more) : Sparse past owed (calls ++ more) := by
  -- Only all of `calls` are settled, so the induction must not ask what is owed between them.
  suffices ∀ {past owed owed'}, Sparse past owed calls → owedAfter owed calls = some owed' →
      Sparse (past ++ calls) owed' more → Sparse past owed (calls ++ more) from
    this h (hs owed) h'
  clear h hs h'
  induction calls with
  | nil =>
    intro past owed owed' _ howed h'
    cases howed
    simpa using h'
  | cons call rest ih =>
    rintro past owed owed' ⟨hle, halone, owed₁, hcall, hrest⟩ howed h'
    rw [owedAfter_cons, hcall, Option.bind_some] at howed
    refine ⟨hle, halone, owed₁, hcall, ih hrest howed ?_⟩
    simpa using h'

/-- What is owed before each of the calls. -/
theorem owed_before (h : Sparse past owed (before ++ call :: after)) :
    ∃ owed', owedAfter owed before = some owed' ∧ owed'.length ≤ 3 ∧
      call.Alone (past ++ before) owed' := by
  induction before generalizing past owed with
  | nil =>
    obtain ⟨hle, halone, -⟩ := h
    exact ⟨owed, rfl, hle, by simpa using halone⟩
  | cons first before ih =>
    obtain ⟨-, -, owed₁, hcall, hrest⟩ := h
    obtain ⟨owed', howed, hle, halone⟩ := ih hrest
    refine ⟨owed', ?_, hle, by simpa using halone⟩
    rw [owedAfter_cons, hcall, Option.bind_some, howed]

/-- While the name of a method is read, two buffers come to the table at most. -/
theorem read {table : LentTable} (htable : .getClassMethods klass (.ok table) ∈ past)
    (read : MethodRead) :
    Sparse past (Call.getClassMethods klass (.ok table)).lent read.calls := by
  have hone := Call.lent_table klass table
  have halone : ∀ method reply, (Call.getMethodName method reply).Alone past
      (Call.getClassMethods klass (.ok table)).lent := fun _ _ => ⟨klass, table, htable, rfl⟩
  generalize (Call.getClassMethods klass (.ok table)).lent = held at hone halone ⊢
  obtain ⟨method, result⟩ := read
  cases result with
  | failed failure =>
    refine ⟨by omega, halone .., held, rfl, ?_⟩
    exact Nat.le_trans hone (by decide)
  | read lent nameBack signatureBack =>
    refine ⟨by omega, halone .., (Call.getMethodName method (.ok lent)).lent ++ held, rfl, ?_⟩
    obtain ⟨name, signature⟩ := lent
    cases name <;> cases signature <;>
      simp [givingBack, Address.ofBuffer?, Sparse, Call.Alone, Call.owed, Call.lent] <;> omega

theorem reads {table : LentTable} (htable : .getClassMethods klass (.ok table) ∈ past)
    (reads : List MethodRead) :
    Sparse past (Call.getClassMethods klass (.ok table)).lent (reads.flatMap MethodRead.calls) := by
  induction reads generalizing past with
  | nil => exact Nat.le_trans (Call.lent_table klass table) (by decide)
  | cons read rest ih =>
    rw [List.flatMap_cons]
    exact (Sparse.read htable read).append read.calls_settled
      (ih (List.mem_append_left read.calls htable))

theorem signature (klass : ClassId) (text : LentText) (back : Reply Unit) :
    Sparse [] [] (signatureCalls klass text back) := by
  cases text <;>
    simp [signatureCalls, givingBack, Address.ofBuffer?, Sparse, Call.Alone, Call.owed, Call.lent]

/-- The table is live until the last name has been given back. -/
theorem table (klass : ClassId) (table : LentTable) (reads : List MethodRead) (back : Reply Unit) :
    Sparse past [] (tableCalls klass table (reads.flatMap MethodRead.calls) back) := by
  refine ⟨by decide, rfl, (Call.getClassMethods klass (.ok table)).lent, ?_, ?_⟩
  · rw [Call.owed_of_lent [] rfl, List.append_nil]
  · have hasked : Call.getClassMethods klass (.ok table) ∈
        past ++ [.getClassMethods klass (.ok table)] := by simp
    refine (Sparse.reads hasked reads).append (.flatMap fun read _ => read.calls_settled) ?_
    obtain ⟨count, buffer⟩ := table
    cases buffer <;>
      simp [givingBack, Address.ofBuffer?, Sparse, Call.Alone, Call.owed, Call.lent]

end Sparse

/-! ## The parts of a visit -/

theorem Search.reads {methods : List MethodId} {found : Option MethodId}
    (h : Search marker methods names found) :
    ∃ reads : List MethodRead, names = reads.flatMap MethodRead.calls := by
  cases h with
  | exhausted reads _ => exact ⟨reads, rfl⟩
  | found passed last _ _ _ => exact ⟨passed ++ [last], by simp⟩

/-- How a visit goes on once the signature has been given back: with the table, and then with one
breakpoint at most. -/
inductive Sequel (klass : ClassId) : List Call → Prop where
  | nothing : Sequel klass []
  | unreadable (failure : Failure) : Sequel klass [.getClassMethods klass (.error failure)]
  | searched (table : LentTable) (reads : List MethodRead) (back : Reply Unit) :
      Sequel klass (tableCalls klass table (reads.flatMap MethodRead.calls) back)
  | arming (table : LentTable) (reads : List MethodRead) (back : Reply Unit) (method : MethodId)
      (reply : Reply Unit) :
      Sequel klass (tableCalls klass table (reads.flatMap MethodRead.calls) back ++
        [.setBreakpoint method Marker.location reply])

theorem Visit.parts {outcome : Outcome} (h : Visit klass marker calls outcome) :
    (∃ failure, calls = [.getClassSignature klass (.error failure)]) ∨
    ∃ text back sequel, calls = signatureCalls klass text back ++ sequel ∧ Sequel klass sequel := by
  cases h with
  | signatureUnreadable failure => exact .inl ⟨failure, rfl⟩
  | notTarget text back _ => exact .inr ⟨text, back, [], (List.append_nil _).symm, .nothing⟩
  | tableUnreadable text back failure _ => exact .inr ⟨text, back, _, rfl, .unreadable failure⟩
  | methodNotFound text back table names tableBack _ hs =>
    obtain ⟨reads, rfl⟩ := hs.reads
    exact .inr ⟨text, back, _, rfl, .searched table reads tableBack⟩
  | installed text back table names tableBack method _ hs =>
    obtain ⟨reads, rfl⟩ := hs.reads
    rw [List.append_assoc]
    exact .inr ⟨text, back, _, rfl, .arming table reads tableBack method _⟩
  | installFailed text back table names tableBack method failure _ hs =>
    obtain ⟨reads, rfl⟩ := hs.reads
    rw [List.append_assoc]
    exact .inr ⟨text, back, _, rfl, .arming table reads tableBack method _⟩

theorem Sequel.sparse (h : Sequel klass calls) : Sparse past [] calls := by
  cases h with
  | nothing => exact Nat.zero_le 3
  | unreadable failure => exact ⟨by decide, rfl, [], rfl, by simp [Sparse]⟩
  | searched table reads back => exact .table klass table reads back
  | arming table reads back method reply =>
    refine (Sparse.table klass table reads back).append
      (tableCalls_settled klass table (.flatMap fun read _ => read.calls_settled) back) ?_
    exact ⟨by decide, rfl, [], rfl, by simp [Sparse]⟩

/-- The calls of a visit are sparse. -/
theorem Visit.sparse {outcome : Outcome} (h : Visit klass marker calls outcome) :
    Sparse [] [] calls := by
  rcases h.parts with ⟨failure, rfl⟩ | ⟨text, back, sequel, rfl, hsequel⟩
  · exact ⟨by decide, rfl, [], rfl, by simp [Sparse]⟩
  · exact (Sparse.signature klass text back).append (signatureCalls_settled klass text back)
      hsequel.sparse

/-! ## The order of releases -/

/-- Each name and each signature of a method goes back at once, the name before the signature. -/
def PairsGoBack (calls : List Call) : Prop :=
  ∀ before method lent after, calls = before ++ .getMethodName method (.ok lent) :: after →
    ∃ nameBack signatureBack rest, after =
      givingBack (.ofBuffer? lent.name) nameBack ++
        givingBack (.ofBuffer? lent.signature) signatureBack ++ rest

/-- A table of methods goes back once the names have been read, and before a breakpoint is set. -/
def TableGoesBack (calls : List Call) : Prop :=
  ∀ before klass table after, calls = before ++ .getClassMethods klass (.ok table) :: after →
    ∃ (reads : List MethodRead) (back : Reply Unit) (rest : List Call), after =
      reads.flatMap MethodRead.calls ++ givingBack (.ofBuffer? table.buffer) back ++ rest ∧
      ∀ call ∈ rest, call.setsBreakpoint = true

theorem PairsGoBack.append (h : PairsGoBack calls) (h' : PairsGoBack more) :
    PairsGoBack (calls ++ more) := by
  intro before method lent after heq
  rcases append_eq_append_cons heq with ⟨between, -, hmore⟩ | ⟨between, hcalls, rfl⟩
  · exact h' between method lent after hmore
  · obtain ⟨nameBack, signatureBack, rest, rfl⟩ := h before method lent between hcalls
    exact ⟨nameBack, signatureBack, rest ++ more, List.append_assoc ..⟩

theorem PairsGoBack.of_notMem (h : ∀ method lent, .getMethodName method (.ok lent) ∉ calls) :
    PairsGoBack calls := by
  rintro before method lent after rfl
  exact absurd (List.mem_append_right before List.mem_cons_self) (h method lent)

/-- A list can be cut in one way only at the one element of some kind. -/
theorem eq_of_cut {α : Type} {P : α → Prop} {a b before after : List α} {x y : α}
    (ha : ∀ z ∈ a, ¬ P z) (hb : ∀ z ∈ b, ¬ P z) (hy : P y)
    (h : a ++ x :: b = before ++ y :: after) : before = a ∧ y = x ∧ after = b := by
  rcases append_eq_append_cons h with ⟨between, rfl, hrest⟩ | ⟨between, rfl, -⟩
  · cases between with
    | nil =>
      obtain ⟨rfl, rfl⟩ := List.cons.inj hrest
      exact ⟨List.append_nil a, rfl, rfl⟩
    | cons z between =>
      obtain ⟨-, rfl⟩ := List.cons.inj hrest
      exact absurd hy (hb y (List.mem_append_right between List.mem_cons_self))
  · exact absurd hy (ha y (List.mem_append_right before List.mem_cons_self))

theorem service_of_mem_givingBack {address : Address} {reply : Reply Unit}
    (h : call ∈ givingBack address reply) : call.service? = some .deallocate := by
  cases address with
  | null => cases h
  | buffer number | stray =>
    obtain rfl := List.mem_singleton.mp h
    rfl

theorem MethodRead.service_of_mem {read : MethodRead} (h : call ∈ read.calls) :
    call.service? = some .getMethodName ∨ call.service? = some .deallocate := by
  obtain ⟨method, result⟩ := read
  cases result with
  | failed failure =>
    obtain rfl := List.mem_singleton.mp h
    exact .inl rfl
  | read lent nameBack signatureBack =>
    rcases List.mem_cons.mp h with rfl | hback
    · exact .inl rfl
    · rcases List.mem_append.mp hback with hname | hsignature
      · exact .inr (service_of_mem_givingBack hname)
      · exact .inr (service_of_mem_givingBack hsignature)

theorem MethodRead.pairsGoBack (read : MethodRead) : PairsGoBack read.calls := by
  obtain ⟨method, result⟩ := read
  cases result with
  | failed failure =>
    refine .of_notMem fun method' lent hmem => ?_
    cases List.mem_singleton.mp hmem
  | read lent nameBack signatureBack =>
    intro before method' lent' after heq
    have hback : ∀ call ∈ givingBack (.ofBuffer? lent.name) nameBack ++
        givingBack (.ofBuffer? lent.signature) signatureBack,
        ¬ call.service? = some .getMethodName := by
      intro call hmem
      rcases List.mem_append.mp hmem with hname | hsignature
      · simp [service_of_mem_givingBack hname]
      · simp [service_of_mem_givingBack hsignature]
    obtain ⟨-, hcall, rfl⟩ := eq_of_cut (a := []) (by simp) hback rfl heq
    cases hcall
    exact ⟨nameBack, signatureBack, [], (List.append_nil _).symm⟩

theorem PairsGoBack.flatMap (reads : List MethodRead) :
    PairsGoBack (reads.flatMap MethodRead.calls) := by
  induction reads with
  | nil => exact .of_notMem fun _ _ => List.not_mem_nil
  | cons read rest ih => exact read.pairsGoBack.append ih

theorem PairsGoBack.cons (h : PairsGoBack calls)
    (hcall : ∀ method lent, call ≠ .getMethodName method (.ok lent)) :
    PairsGoBack (call :: calls) := by
  have halone : PairsGoBack [call] := .of_notMem fun method lent hmem =>
    hcall method lent (List.mem_singleton.mp hmem).symm
  exact halone.append h

theorem PairsGoBack.givingBack (address : Address) (reply : Reply Unit) :
    PairsGoBack (givingBack address reply) :=
  .of_notMem fun _ _ hmem => by cases service_of_mem_givingBack hmem

theorem PairsGoBack.table (klass : ClassId) (table : LentTable) (reads : List MethodRead)
    (back : Reply Unit) :
    PairsGoBack (tableCalls klass table (reads.flatMap MethodRead.calls) back) :=
  ((PairsGoBack.flatMap reads).append (.givingBack _ back)).cons nofun

theorem Visit.pairsGoBack {outcome : Outcome} (h : Visit klass marker calls outcome) :
    PairsGoBack calls := by
  have single : ∀ call : Call, (∀ method lent, call ≠ .getMethodName method (.ok lent)) →
      PairsGoBack [call] := fun call hcall =>
    PairsGoBack.cons (.of_notMem fun _ _ => List.not_mem_nil) hcall
  rcases h.parts with ⟨failure, rfl⟩ | ⟨text, back, sequel, rfl, hsequel⟩
  · exact single _ nofun
  · refine PairsGoBack.append ((PairsGoBack.givingBack _ back).cons nofun) ?_
    cases hsequel with
    | nothing => exact .of_notMem fun _ _ => List.not_mem_nil
    | unreadable failure => exact single _ nofun
    | searched table reads back => exact .table klass table reads back
    | arming table reads back method reply =>
      exact (PairsGoBack.table klass table reads back).append (single _ nofun)

/-- The one table of a visit goes back between the names and the breakpoint. -/
theorem TableGoesBack.of_table {table : LentTable} {reads : List MethodRead} {back : Reply Unit}
    {rest : List Call} (hpast : ∀ call ∈ past, call.service? ≠ some .getClassMethods)
    (hrest : ∀ call ∈ rest, call.setsBreakpoint = true) :
    TableGoesBack
      (past ++ (tableCalls klass table (reads.flatMap MethodRead.calls) back ++ rest)) := by
  intro before klass' table' after heq
  have hbehind : ∀ call ∈ reads.flatMap MethodRead.calls ++
      givingBack (.ofBuffer? table.buffer) back ++ rest,
      ¬ call.service? = some .getClassMethods := by
    intro call hmem
    rcases List.mem_append.mp hmem with hread | hset
    · rcases List.mem_append.mp hread with hname | hback
      · obtain ⟨read, -, hin⟩ := List.mem_flatMap.mp hname
        rcases MethodRead.service_of_mem hin with hs | hs <;> simp [hs]
      · simp [service_of_mem_givingBack hback]
    · have hsets := hrest call hset
      cases call <;> simp_all [Call.setsBreakpoint, Call.service?]
  obtain ⟨-, hcall, rfl⟩ := eq_of_cut hpast hbehind rfl heq
  cases hcall
  exact ⟨reads, back, rest, rfl, hrest⟩

theorem TableGoesBack.of_notMem
    (h : ∀ klass table, .getClassMethods klass (.ok table) ∉ calls) : TableGoesBack calls := by
  rintro before klass table after rfl
  exact absurd (List.mem_append_right before List.mem_cons_self) (h klass table)

theorem Visit.tableGoesBack {outcome : Outcome} (h : Visit klass marker calls outcome) :
    TableGoesBack calls := by
  rcases h.parts with ⟨failure, rfl⟩ | ⟨text, back, sequel, rfl, hsequel⟩
  · refine .of_notMem fun klass' table hmem => ?_
    cases List.mem_singleton.mp hmem
  · have hsignature : ∀ call ∈ signatureCalls klass text back,
        call.service? ≠ some .getClassMethods := by
      intro call hmem
      rcases List.mem_cons.mp hmem with rfl | hback
      · nofun
      · simp [service_of_mem_givingBack hback]
    cases hsequel with
    | nothing =>
      rw [List.append_nil]
      exact .of_notMem fun klass' table hmem => hsignature _ hmem rfl
    | unreadable failure =>
      refine .of_notMem fun klass' table hmem => ?_
      rcases List.mem_append.mp hmem with hpast | hlast
      · exact hsignature _ hpast rfl
      · cases List.mem_singleton.mp hlast
    | searched table reads back' =>
      rw [← List.append_nil (tableCalls ..)]
      exact .of_table hsignature (by simp)
    | arming table reads back' method reply =>
      exact .of_table hsignature (by simp [Call.setsBreakpoint])

end

/-! ## Looking at a class -/

section

variable {machine : Machine σ} {env : Env} {K : σ → Prop} {live : σ → List Nat} {w w' : World σ}
  {calls : List Call} {klass : ClassId} {marker : Marker} {outcome : Outcome}

/-- Through an environment that does not work every call fails. -/
theorem Dialogue.failed (he : env ≠ .live) (h : Dialogue machine env w calls w') :
    ∀ call ∈ calls, call.failure? ≠ none := by
  induction h with
  | silence => simp
  | attempt ha _ ih =>
    cases ha with
    | made hl _ _ _ => exact absurd hl he
    | unmade hu =>
      refine List.forall_mem_cons.mpr ⟨?_, ih⟩
      cases hu with
      | invalid _ hf => simp [hf]
      | missing hl _ _ _ => exact absurd hl he
  | record _ _ _ _ ih => exact ih

theorem Visit.of_failed (h : Visit klass marker calls outcome)
    (hf : ∀ call ∈ calls, call.failure? ≠ none) :
    ∃ failure, calls = [.getClassSignature klass (.error failure)] := by
  rcases h.parts with hfailed | ⟨text, back, sequel, rfl, -⟩
  · exact hfailed
  · exact absurd rfl (hf (.getClassSignature klass (.ok text)) (by simp [signatureCalls]))

/-- Every attempted release is a call of the machine. -/
theorem Machine.TakesEffect.releases_made (h : machine.TakesEffect K live) (hw : K w.machine)
    (hv : Visit klass marker calls outcome)
    (hd : Dialogue machine env w calls { w' with agent := w.agent }) :
    (callsSince w w').Sublist calls ∧
      (callsSince w w').filter Call.givesBack = calls.filter Call.givesBack := by
  by_cases he : env = .live
  · subst he
    obtain ⟨made, hc, hwithout⟩ := hd.made (D := fun call => call.givesBack = false) h.keeps
      (fun _ s hs hu => hu.no_release (h.takesBack s hs)) hw
    have hsince : Since w w' made := .of_course hc rfl
    rw [hsince.callsSince_eq]
    exact ⟨hwithout.sublist, hwithout.filter_eq fun _ => id⟩
  · obtain ⟨failure, rfl⟩ := hv.of_failed (hd.failed he)
    have hsince : Since w w' [] := .of_course (hd.unmade he) rfl
    rw [hsince.callsSince_eq]
    exact ⟨List.nil_sublist _, rfl⟩

/-- When a call of a visit is made, three buffers are live at most, and none that must not be. -/
theorem Machine.TakesEffect.visit (h : machine.TakesEffect K live) (hw : K w.machine)
    (hnone : live w.machine = []) (hv : Visit klass marker calls outcome)
    (hd : Dialogue machine env w calls w') :
    live w'.machine = [] ∧
      ∀ before call after, calls = before ++ call :: after →
        ∀ w₁, Dialogue machine env w before w₁ →
          (live w₁.machine).length ≤ 3 ∧ call.Alone before (live w₁.machine) := by
  by_cases he : env = .live
  · subst he
    have hstart : (live w.machine).Perm [] := hnone ▸ .refl _
    refine ⟨(h.dialogue hd hw hstart (hv.settled [])).eq_nil, ?_⟩
    rintro before call after rfl w₁ hbefore
    obtain ⟨owed, howed, hle, halone⟩ := hv.sparse.owed_before
    have hperm := h.dialogue hbefore hw hstart howed
    exact ⟨hperm.length_eq ▸ hle, halone.of_perm hperm⟩
  · have hsame : ∀ {others : List Call} {w₁ : World σ}, Dialogue machine env w others w₁ →
        live w₁.machine = [] := by
      intro others w₁ hothers
      rw [(hothers.unmade he).machine_eq rfl, hnone]
    refine ⟨hsame hd, ?_⟩
    intro before call after hcalls w₁ hbefore
    obtain ⟨failure, hfailed⟩ := hv.of_failed (hd.failed he)
    rw [hfailed] at hcalls
    obtain ⟨-, rfl, -⟩ := eq_of_cut (P := fun _ => True) (a := []) (b := []) (by simp) (by simp)
      trivial hcalls
    rw [hsame hbefore]
    exact ⟨by decide, rfl⟩

end

/-- While a prepared class is looked at on a machine whose releases take effect, and where nothing
was live before, three buffers are live at most at any time, however many methods the class has, and
nothing is live in the end. Nothing is live when the signature, the methods or a breakpoint are
asked for, and nothing but the method table when a name is. Each name goes back before the signature
that came with it, and both before anything else is asked; the table goes back after them, and
before the method is recorded. -/
theorem few_buffers_are_live (machine : Machine σ) (env : Env) {K : σ → Prop}
    {live : σ → List Nat} (h : machine.TakesEffect K live) (klass : ClassId) (marker : Marker)
    (w : World σ) (hw : K w.machine) (hnone : live w.machine = []) :
    ∃ calls, Visit klass marker calls (watchClass machine env klass marker w).1 ∧
      Dialogue machine env w calls
        { (watchClass machine env klass marker w).2 with agent := w.agent } ∧
      (callsSince w (watchClass machine env klass marker w).2).Sublist calls ∧
      (callsSince w (watchClass machine env klass marker w).2).filter Call.givesBack =
        calls.filter Call.givesBack ∧
      live (watchClass machine env klass marker w).2.machine = [] ∧
      (∀ before call after, calls = before ++ call :: after →
        ∃ w₁, Dialogue machine env w before w₁ ∧
          Dialogue machine env w₁ (call :: after)
            { (watchClass machine env klass marker w).2 with agent := w.agent } ∧
          (live w₁.machine).length ≤ 3 ∧ call.Alone before (live w₁.machine)) ∧
      PairsGoBack calls ∧ TableGoesBack calls ∧
      ((watchClass machine env klass marker w).1.attempted? = none →
        (watchClass machine env klass marker w).2.agent = w.agent) ∧
      ∀ method, (watchClass machine env klass marker w).1.attempted? = some method →
        ∃ earlier reply w₁, calls = earlier ++ [.setBreakpoint method Marker.location reply] ∧
          Dialogue machine env w earlier w₁ ∧ live w₁.machine = [] ∧
          Dialogue machine env (w₁.recording method)
            [.setBreakpoint method Marker.location reply]
            (watchClass machine env klass marker w).2 := by
  obtain ⟨calls, hv, hl⟩ := watchClass_visit machine env klass marker w
  obtain ⟨hmade, hreleases⟩ := h.releases_made hw hv hl.dialogue
  obtain ⟨hend, hlive⟩ := h.visit hw hnone hv hl.dialogue
  refine ⟨calls, hv, hl.dialogue, hmade, hreleases, hend, ?_, hv.pairsGoBack, hv.tableGoesBack,
    ?_, ?_⟩
  · intro before call after hcalls
    obtain ⟨w₁, hbefore, hafter⟩ := (hcalls ▸ hl.dialogue).split
    obtain ⟨hle, halone⟩ := hlive before call after hcalls w₁ hbefore
    exact ⟨w₁, hbefore, hafter, hle, halone⟩
  · intro hnot
    cases hl with
    | unarmed hd _ => exact hd.agent_eq.1
    | armed _ _ ho =>
      rw [ho] at hnot
      cases hnot
  · intro method hattempted
    generalize (watchClass machine env klass marker w).1 = outcome at *
    generalize (watchClass machine env klass marker w).2 = w' at *
    cases hl with
    | unarmed _ ho =>
      rw [ho] at hattempted
      cases hattempted
    | @armed earlier _ w₁ _ _ reply hbefore hset ho =>
      rw [ho, Option.some.injEq] at hattempted
      subst hattempted
      exact ⟨earlier, reply, w₁, rfl, hbefore, (hlive _ _ [] rfl w₁ hbefore).2, hset⟩

section

open Simulation Host

theorem Simulation.Host.tidy_takesEffect :
    Host.machine.TakesEffect Tidy Host.outstanding where
  keeps _ _ _ ha h := (h.answers ha).1
  takesBack _ h := h.provides
  live _ _ _ owed h ha := (h.answers ha).2 owed

/-- Of the first loader's class everything is back when its breakpoint is set. -/
theorem few_buffers_are_live_first_loader :
    (Host.machine.TakesEffect Tidy Host.outstanding ∧ Tidy twoLoadersStart.machine ∧
      twoLoadersStart.machine.outstanding = []) ∧
      (watchClass Host.machine .live ⟨1⟩ .standard twoLoadersStart).1 = .installed ⟨1⟩ ∧
      (watchClass Host.machine .live ⟨1⟩ .standard twoLoadersStart).2.machine.lent = 4 ∧
      (watchClass Host.machine .live ⟨1⟩ .standard twoLoadersStart).2.machine.outstanding = [] := by
  have htidy : Tidy twoLoadersStart.machine := ⟨rfl, fun _ => rfl, .nil, nofun⟩
  obtain ⟨_, -, -, -, -, hend, -⟩ := few_buffers_are_live Host.machine .live tidy_takesEffect ⟨1⟩
    .standard twoLoadersStart htidy rfl
  exact ⟨⟨tidy_takesEffect, htidy, rfl⟩, by decide +kernel, by decide +kernel, hend⟩

end

end Rendezvous
