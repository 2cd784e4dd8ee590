import DhsTranslator.Conc.Alone
import DhsTranslator.Memory.Listed
import DhsTranslator.Service.Configuration

/-!
# The service, from its creation to its removal

What the framework calls besides the requests, over the commands `LifeCmd`: the static pointer to the service, the
pointers in the objects, and what is allocated and deleted. What the methods of an object do inside of it does not matter
here, only that there is such an object.

- `AxisCall.prog`: the entry points, down to the destructor of the service;
- `LifeView`: who owns what, and `Moves`: what the entry points do to that;
- `lifecycle`: in every life the heap is as the view says, and every access is defined;
- `removal_final`: after a removal nothing of the service is left, and calls are refused without an effect.
-/

namespace DhsTranslator

open Conc Memory DhsService

/-! ## Objects -/

structure ObjPtr where
  addr : Nat
  deriving DecidableEq, Repr

/-- What is allocated; an adapter and a cache with what they were constructed with. -/
inductive LifeObj where
  | service (dhsAdapter msgCache : Option ObjPtr)
  | adapter (choice : AdapterChoice)
  | cache (deltat : Int)
  | skeleton (funcArray : Option ObjPtr)
  | arrayList
  deriving DecidableEq

inductive ObjKind where
  | service
  | adapter
  | cache
  | skeleton
  | arrayList
  deriving DecidableEq, Repr

def LifeObj.kind : LifeObj → ObjKind
  | .service _ _ => .service
  | .adapter _ => .adapter
  | .cache _ => .cache
  | .skeleton _ => .skeleton
  | .arrayList => .arrayList

inductive LifeCmd where
  | getTheService
  | setTheService (p : Option ObjPtr)
  | new (o : LifeObj)
  /-- the object with its storage, through a pointer to one of this kind -/
  | delete (k : ObjKind) (p : ObjPtr)
  | getDhsAdapter (this : ObjPtr)
  | setDhsAdapter (this : ObjPtr) (p : Option ObjPtr)
  | getMsgCache (this : ObjPtr)
  | setMsgCache (this : ObjPtr) (p : Option ObjPtr)
  | getFuncArray (skel : ObjPtr)
  | setFuncArray (skel : ObjPtr) (p : Option ObjPtr)
  /-- a command of a request, done by the object -/
  | method (p : Option ObjPtr) (c : SvcCmd)

abbrev LifeCmd.Resp : LifeCmd → Type
  | .getTheService => Option ObjPtr
  | .new _ => ObjPtr
  | .getDhsAdapter _ => Option ObjPtr
  | .getMsgCache _ => Option ObjPtr
  | .getFuncArray _ => Option ObjPtr
  | .method _ c => c.Resp
  | _ => Unit

abbrev LifeSig : Sig := ⟨LifeCmd, LifeCmd.Resp⟩

abbrev Life := Prog LifeSig

/-- The object that does a command of a request, if one does. -/
def SvcCmd.object : SvcCmd → Option ObjKind
  | .time => none
  | .purgeOldMessages _ => some .cache
  | .exists _ _ => some .cache
  | .add _ _ _ => some .cache
  | _ => some .adapter

/-! ## The entry points -/

inductive AxisStatus where
  | SUCCESS
  | FAILURE
  deriving DecidableEq, Repr

namespace Lifecycle

section Commands

variable {ε : Type}

def getTheService : Life ε (Option ObjPtr) := .call (S := LifeSig) .getTheService .ret

def setTheService (p : Option ObjPtr) : Life ε Unit := .call (S := LifeSig) (.setTheService p) .ret

def new (o : LifeObj) : Life ε ObjPtr := .call (S := LifeSig) (.new o) .ret

def delete (k : ObjKind) (p : ObjPtr) : Life ε Unit := .call (S := LifeSig) (.delete k p) .ret

/-- `if (p != NULL) delete p`. -/
def deleteIf (k : ObjKind) : Option ObjPtr → Life ε Unit
  | some p => delete k p
  | none => .ret ()

def loadDhsAdapter (this : ObjPtr) : Life ε (Option ObjPtr) := .call (S := LifeSig) (.getDhsAdapter this) .ret

def storeDhsAdapter (this : ObjPtr) (p : Option ObjPtr) : Life ε Unit := .call (S := LifeSig) (.setDhsAdapter this p) .ret

def loadMsgCache (this : ObjPtr) : Life ε (Option ObjPtr) := .call (S := LifeSig) (.getMsgCache this) .ret

def storeMsgCache (this : ObjPtr) (p : Option ObjPtr) : Life ε Unit := .call (S := LifeSig) (.setMsgCache this p) .ret

def loadFuncArray (skel : ObjPtr) : Life ε (Option ObjPtr) := .call (S := LifeSig) (.getFuncArray skel) .ret

def storeFuncArray (skel : ObjPtr) (p : Option ObjPtr) : Life ε Unit := .call (S := LifeSig) (.setFuncArray skel p) .ret

def method (p : Option ObjPtr) (c : SvcCmd) : Life ε c.Resp := .call (S := LifeSig) (.method p c) .ret

/-- The pointer is replaced, after the object it pointed to is deleted. -/
def setDhsAdapter (this : ObjPtr) (dhsAdapter : Option ObjPtr) : Life ε Unit := do
  deleteIf .adapter (← loadDhsAdapter this)
  storeDhsAdapter this dhsAdapter

def setMsgCache (this : ObjPtr) (msgCache : Option ObjPtr) : Life ε Unit := do
  deleteIf .cache (← loadMsgCache this)
  storeMsgCache this msgCache

/-- `delete` of a service: its destructor, then its storage. -/
def deleteService (this : ObjPtr) : Life ε Unit := do
  deleteIf .adapter (← loadDhsAdapter this)
  deleteIf .cache (← loadMsgCache this)
  delete .service this

def create : Life ε ObjPtr := do
  if (← getTheService).isNone then
    setTheService (some (← new (.service none none)))
  new (.skeleton none)

def free : Option ObjPtr → Life ε AxisStatus
  | none => return .SUCCESS
  | some skel => do
    match ← loadFuncArray skel with
    | some funcs =>
      delete .arrayList funcs
      storeFuncArray skel none
    | none => pure ()
    delete .skeleton skel
    return .SUCCESS

def remove (skel : Option ObjPtr) : Life ε AxisStatus := do
  match ← getTheService with
  | none => return .FAILURE
  | some this =>
    let status ← free skel
    deleteService this
    setTheService none
    return status

/-- The parameters that can end the configuration are read before anything is constructed; the period, which is read after
the adapter is made, cannot. -/
def stubInitWithConfig (cenv : ConfEnv) (conf : Conf) : Life ConfAbort AxisStatus := do
  match ← getTheService with
  | none => return .FAILURE
  | some this =>
    let s ← Prog.lift (DhsService.stubInitWithConfig cenv true conf)
    let pAdapter ← new (.adapter s.dhsAdapter)
    setDhsAdapter this (some pAdapter)
    let pCache ← new (.cache s.msgCache.validAge)
    setMsgCache this (some pCache)
    return .SUCCESS

/-- The commands of a request, done by the objects of the service. -/
def methods (this : ObjPtr) : Impl SvcSig LifeSig := fun c =>
  match c.object with
  | some .adapter => do method (← loadDhsAdapter this) c
  | some _ => do method (← loadMsgCache this) c
  | none => method none c

def stubInvoke (env : Env) (req : AxiomNode) : Life Abort (Option AxiomNode) := do
  match ← getTheService with
  | none => return some (buildErrorResponse INTERNAL_ERROR "Internal error processing request.")
  | some this => (serve env req).plug (methods this)

def stubFree (skel : Option ObjPtr) : Life ε AxisStatus := do
  match ← getTheService with
  | none => return .FAILURE
  | some _ => free skel

/-- An instance that is got is never `NULL`. -/
def axis2GetInstance : Life ε ObjPtr := create

def axis2RemoveInstance : Option ObjPtr → Life ε AxisStatus
  | none => return .FAILURE
  | some inst => remove (some inst)

end Commands

end Lifecycle

open Lifecycle

/-- What the framework calls. -/
inductive AxisCall where
  | getInstance
  | initWithConfig (cenv : ConfEnv) (conf : Conf)
  | invoke (env : Env) (req : AxiomNode)
  | free (skel : Option ObjPtr)
  | removeInstance (skel : Option ObjPtr)

abbrev AxisCall.Err : AxisCall → Type
  | .initWithConfig _ _ => ConfAbort
  | .invoke _ _ => Abort
  | _ => Empty

abbrev AxisCall.Ret : AxisCall → Type
  | .getInstance => ObjPtr
  | .invoke _ _ => Option AxiomNode
  | _ => AxisStatus

def AxisCall.prog : (c : AxisCall) → Life c.Err c.Ret
  | .getInstance => axis2GetInstance
  | .initWithConfig cenv conf => Lifecycle.stubInitWithConfig cenv conf
  | .invoke env req => Lifecycle.stubInvoke env req
  | .free skel => stubFree skel
  | .removeInstance skel => axis2RemoveInstance skel

/-! ## What the commands do -/

/-- The static pointer and what is allocated. -/
structure LifeState where
  theService : Option ObjPtr
  heap : Cells ObjPtr LifeObj

def lifeSem : Sem Unit LifeState LifeSig
  | _, s, ⟨.getTheService, p⟩, s' => p = s.theService ∧ s' = s
  | _, s, ⟨.setTheService p, _⟩, s' => s' = { s with theService := p }
  | _, s, ⟨.new o, p⟩, s' => s.heap p = none ∧ s' = { s with heap := s.heap.new p o }
  | _, s, ⟨.delete _ p, _⟩, s' => s' = { s with heap := s.heap.delete p }
  | _, s, ⟨.getDhsAdapter this, p⟩, s' => (∃ c, s.heap this = some (.service p c)) ∧ s' = s
  | _, s, ⟨.setDhsAdapter this p, _⟩, s' =>
    ∃ a c, s.heap this = some (.service a c) ∧ s' = { s with heap := s.heap.new this (.service p c) }
  | _, s, ⟨.getMsgCache this, p⟩, s' => (∃ a, s.heap this = some (.service a p)) ∧ s' = s
  | _, s, ⟨.setMsgCache this p, _⟩, s' =>
    ∃ a c, s.heap this = some (.service a c) ∧ s' = { s with heap := s.heap.new this (.service a p) }
  | _, s, ⟨.getFuncArray skel, p⟩, s' => s.heap skel = some (.skeleton p) ∧ s' = s
  | _, s, ⟨.setFuncArray skel p, _⟩, s' => s' = { s with heap := s.heap.new skel (.skeleton p) }
  | _, s, ⟨.method _ _, _⟩, s' => s' = s

/-- There is an object of this kind. -/
def LifeState.Has (s : LifeState) (k : ObjKind) (p : ObjPtr) : Prop := ∃ o, s.heap p = some o ∧ o.kind = k

/-- The access is defined: a pointer that is followed points to an object of its kind. -/
def LifeCmd.Defined (s : LifeState) : LifeCmd → Prop
  | .delete k p => s.Has k p
  | .getDhsAdapter this => s.Has .service this
  | .setDhsAdapter this _ => s.Has .service this
  | .getMsgCache this => s.Has .service this
  | .setMsgCache this _ => s.Has .service this
  | .getFuncArray skel => s.Has .skeleton skel
  | .setFuncArray skel _ => s.Has .skeleton skel
  | .method p c => ∀ k, c.object = some k → ∃ q, p = some q ∧ s.Has k q
  | _ => True

/-- The next command may be issued: it is defined, and where `once` is asked for, no adapter is made next to another. -/
def LifeCmd.May (once : Prop) (c : LifeCmd) (s : LifeState) : Prop :=
  c.Defined s ∧ ∀ choice, c = .new (.adapter choice) → once → ∀ q, ¬s.Has .adapter q

/-- What the framework sees to: skeletons that it gives back are those that it got, and requests are for a service that was
configured; where `once` is asked for, no service is configured again. -/
def AxisCall.Fair (once : Prop) (s : LifeState) : AxisCall → Prop
  | .free (some skel) => s.Has .skeleton skel
  | .removeInstance (some skel) => s.Has .skeleton skel
  | .invoke _ _ => ∀ p, s.theService = some p → ∃ a c, s.heap p = some (.service (some a) (some c))
  | .initWithConfig _ _ => once → ∀ p, s.theService = some p → ∃ c, s.heap p = some (.service none c)
  | _ => True

/-- A call with how it ended. -/
structure AxisEvent where
  call : AxisCall
  result : Except call.Err call.Ret

/-- Calls, one after another, from a state on. -/
inductive Calls (once : Prop) (s₀ : LifeState) : List AxisEvent → LifeState → Prop
  | nil : Calls once s₀ [] s₀
  | call {evs : List AxisEvent} {s s' : LifeState} {c : AxisCall} {x : Except c.Err c.Ret} {acts : List (Act LifeSig)}
      (h : Calls once s₀ evs s) (hfair : c.Fair once s) (hend : Ends c.prog acts x)
      (hx : Exec lifeSem s (acts.map (Event.mk ())) s') : Calls once s₀ (evs ++ [⟨c, x⟩]) s'

/-- All calls since the library was loaded. -/
abbrev Lifetime (once : Prop) : List AxisEvent → LifeState → Prop := Calls once ⟨none, .none⟩

/-! ## Who owns what -/

/-- A service with its adapter and its cache. -/
structure ServiceView where
  ptr : ObjPtr
  adapter : Option (ObjPtr × AdapterChoice)
  cache : Option (ObjPtr × Int)

/-- The one service, if there is one, and the skeletons that the framework has. -/
structure LifeView where
  service : Option ServiceView
  skeletons : List ObjPtr

/-- The cell of an object that may be there. -/
def ownedCell {β : Type} (mk : β → LifeObj) (x : Option (ObjPtr × β)) : List (ObjPtr × LifeObj) :=
  (x.map fun y => (y.1, mk y.2)).toList

def ServiceView.cells (v : ServiceView) : List (ObjPtr × LifeObj) :=
  (v.ptr, .service (v.adapter.map Prod.fst) (v.cache.map Prod.fst)) ::
    (ownedCell .adapter v.adapter ++ ownedCell .cache v.cache)

def skeletonCells (skeletons : List ObjPtr) : List (ObjPtr × LifeObj) := skeletons.map fun p => (p, .skeleton none)

def LifeView.cells (v : LifeView) : List (ObjPtr × LifeObj) :=
  (v.service.map ServiceView.cells).getD [] ++ skeletonCells v.skeletons

/-- The heap is as the view says. -/
structure LifeView.Describes (v : LifeView) (s : LifeState) : Prop where
  theService : s.theService = v.service.map ServiceView.ptr
  heap : Listed v.cells s.heap

/-- What the calls do, and how they end. -/
inductive Moves : LifeView → (c : AxisCall) → Except c.Err c.Ret → LifeView → Prop
  /-- the first instance makes the service -/
  | created (skeletons : List ObjPtr) (p skel : ObjPtr) :
      Moves ⟨none, skeletons⟩ .getInstance (.ok skel) ⟨some ⟨p, none, none⟩, skel :: skeletons⟩
  | instance (v : ServiceView) (skeletons : List ObjPtr) (skel : ObjPtr) :
      Moves ⟨some v, skeletons⟩ .getInstance (.ok skel) ⟨some v, skel :: skeletons⟩
  | notCreated (cenv : ConfEnv) (conf : Conf) (skeletons : List ObjPtr) :
      Moves ⟨none, skeletons⟩ (.initWithConfig cenv conf) (.ok .FAILURE) ⟨none, skeletons⟩
  | badConfig (cenv : ConfEnv) (conf : Conf) (v : ServiceView) (skeletons : List ObjPtr) (e : ConfAbort)
      (h : DhsService.stubInitWithConfig cenv true conf = .error e) :
      Moves ⟨some v, skeletons⟩ (.initWithConfig cenv conf) (.error e) ⟨some v, skeletons⟩
  | configured (cenv : ConfEnv) (conf : Conf) (v : ServiceView) (skeletons : List ObjPtr) (s : Configured) (p q : ObjPtr)
      (h : DhsService.stubInitWithConfig cenv true conf = .ok s) :
      Moves ⟨some v, skeletons⟩ (.initWithConfig cenv conf) (.ok .SUCCESS)
        ⟨some ⟨v.ptr, some (p, s.dhsAdapter), some (q, s.msgCache.validAge)⟩, skeletons⟩
  | refused (env : Env) (req : AxiomNode) (skeletons : List ObjPtr) :
      Moves ⟨none, skeletons⟩ (.invoke env req) (.ok (some internalError)) ⟨none, skeletons⟩
  | served (env : Env) (req : AxiomNode) (v : ServiceView) (skeletons : List ObjPtr) (x : Except Abort (Option AxiomNode)) :
      Moves ⟨some v, skeletons⟩ (.invoke env req) x ⟨some v, skeletons⟩
  /-- without a service a skeleton is not freed -/
  | lost (skel : Option ObjPtr) (skeletons : List ObjPtr) :
      Moves ⟨none, skeletons⟩ (.free skel) (.ok .FAILURE) ⟨none, skeletons⟩
  | freed (v : ServiceView) (skel : Option ObjPtr) (skeletons : List ObjPtr) :
      Moves ⟨some v, skeletons⟩ (.free skel) (.ok .SUCCESS) ⟨some v, skel.elim skeletons skeletons.erase⟩
  | ignored (v : LifeView) : Moves v (.removeInstance none) (.ok .FAILURE) v
  | notThere (skel : ObjPtr) (skeletons : List ObjPtr) :
      Moves ⟨none, skeletons⟩ (.removeInstance (some skel)) (.ok .FAILURE) ⟨none, skeletons⟩
  | removed (v : ServiceView) (skel : ObjPtr) (skeletons : List ObjPtr) :
      Moves ⟨some v, skeletons⟩ (.removeInstance (some skel)) (.ok .SUCCESS) ⟨none, skeletons.erase skel⟩

/-- The views, one after another. -/
inductive Views : List AxisEvent → LifeView → Prop
  | start : Views [] ⟨none, []⟩
  | call {evs : List AxisEvent} {v v' : LifeView} {c : AxisCall} {x : Except c.Err c.Ret} (h : Views evs v)
      (hmoves : Moves v c x v') : Views (evs ++ [⟨c, x⟩]) v'

/-! ## Single accesses -/

section Accesses

variable {ε α : Type} {once : Prop} {Q : Except ε α → LifeState → Prop} {s : LifeState} {l l' : List (ObjPtr × LifeObj)}
  {p q this skel : ObjPtr} {o : LifeObj} {k : ObjKind} {a c : Option ObjPtr}

/-- A program that issues only what it may, and ends as in `Q`. -/
abbrev Good (once : Prop) (Q : Except ε α → LifeState → Prop) (p : Life ε α) (s : LifeState) : Prop :=
  Meets lifeSem () (LifeCmd.May once) Q p s

theorem has_iff (hl : Listed l s.heap) : s.Has k p ↔ ∃ o, (p, o) ∈ l ∧ o.kind = k :=
  exists_congr fun _ => and_congr_left fun _ => hl.cell

theorem has_head (hl : Listed ((p, o) :: l) s.heap) : s.Has o.kind p := ⟨o, hl.head, rfl⟩

theorem good_getTheService {f : Option ObjPtr → Life ε α} (hf : Good once Q (f s.theService) s) :
    Good once Q (getTheService >>= f) s := by
  refine ⟨⟨trivial, nofun⟩, ?_⟩
  rintro _ _ ⟨rfl, rfl⟩
  exact hf

theorem good_setTheService {f : Unit → Life ε α} {p : Option ObjPtr}
    (hf : Good once Q (f ()) { s with theService := p }) : Good once Q (setTheService p >>= f) s := by
  refine ⟨⟨trivial, nofun⟩, ?_⟩
  rintro _ _ rfl
  exact hf

theorem good_new {f : ObjPtr → Life ε α} (hl : Listed l s.heap)
    (ho : ∀ choice, o = .adapter choice → once → ∀ q, ¬s.Has .adapter q)
    (hf : ∀ p h, Listed ((p, o) :: l) h → Good once Q (f p) ⟨s.theService, h⟩) : Good once Q (new o >>= f) s := by
  refine ⟨⟨trivial, fun choice hc => ho choice (LifeCmd.new.inj hc)⟩, ?_⟩
  rintro p _ ⟨hfresh, rfl⟩
  exact hf p _ (hl.new hfresh o)

theorem good_delete {f : Unit → Life ε α} (hl : Listed ((p, o) :: l) s.heap) (hk : o.kind = k)
    (hf : ∀ h, Listed l h → Good once Q (f ()) ⟨s.theService, h⟩) : Good once Q (delete k p >>= f) s := by
  subst hk
  refine ⟨⟨has_head hl, nofun⟩, ?_⟩
  rintro _ _ rfl
  exact hf _ hl.delete

/-- An object that may be there. -/
theorem good_deleteIf {β : Type} {f : Unit → Life ε α} (x : Option (ObjPtr × β)) (mk : β → LifeObj)
    (hk : ∀ b, (mk b).kind = k) (hl : Listed (ownedCell mk x ++ l) s.heap)
    (hf : ∀ h, Listed l h → Good once Q (f ()) ⟨s.theService, h⟩) :
    Good once Q (deleteIf k (x.map Prod.fst) >>= f) s := by
  cases x with
  | none => exact hf _ hl
  | some y => exact good_delete hl (hk y.2) hf

theorem good_loadDhsAdapter {f : Option ObjPtr → Life ε α} (hl : Listed ((this, .service a c) :: l) s.heap)
    (hf : Good once Q (f a) s) : Good once Q (loadDhsAdapter this >>= f) s := by
  refine ⟨⟨has_head hl, nofun⟩, ?_⟩
  rintro p _ ⟨⟨c', hp⟩, rfl⟩
  obtain ⟨rfl, _⟩ := LifeObj.service.inj (Option.some.inj (hl.head.symm.trans hp))
  exact hf

theorem good_loadMsgCache {f : Option ObjPtr → Life ε α} (hl : Listed ((this, .service a c) :: l) s.heap)
    (hf : Good once Q (f c) s) : Good once Q (loadMsgCache this >>= f) s := by
  refine ⟨⟨has_head hl, nofun⟩, ?_⟩
  rintro p _ ⟨⟨a', hp⟩, rfl⟩
  obtain ⟨_, rfl⟩ := LifeObj.service.inj (Option.some.inj (hl.head.symm.trans hp))
  exact hf

theorem good_storeDhsAdapter {f : Unit → Life ε α} {p : Option ObjPtr} (hl : Listed ((this, .service a c) :: l) s.heap)
    (hf : ∀ h, Listed ((this, .service p c) :: l) h → Good once Q (f ()) ⟨s.theService, h⟩) :
    Good once Q (storeDhsAdapter this p >>= f) s := by
  refine ⟨⟨has_head hl, nofun⟩, ?_⟩
  rintro _ _ ⟨a', c', hthis, rfl⟩
  obtain ⟨rfl, rfl⟩ := LifeObj.service.inj (Option.some.inj (hl.head.symm.trans hthis))
  exact hf _ (hl.set _)

theorem good_storeMsgCache {f : Unit → Life ε α} {p : Option ObjPtr} (hl : Listed ((this, .service a c) :: l) s.heap)
    (hf : ∀ h, Listed ((this, .service a p) :: l) h → Good once Q (f ()) ⟨s.theService, h⟩) :
    Good once Q (storeMsgCache this p >>= f) s := by
  refine ⟨⟨has_head hl, nofun⟩, ?_⟩
  rintro _ _ ⟨a', c', hthis, rfl⟩
  obtain ⟨rfl, rfl⟩ := LifeObj.service.inj (Option.some.inj (hl.head.symm.trans hthis))
  exact hf _ (hl.set _)

/-- The adapter of a service is replaced. -/
theorem good_setDhsAdapter {Q : Except ε Unit → LifeState → Prop} {p : Option ObjPtr} (x : Option (ObjPtr × AdapterChoice))
    (hl : Listed ((this, .service (x.map Prod.fst) c) :: (ownedCell .adapter x ++ l)) s.heap)
    (hQ : ∀ h, Listed ((this, .service p c) :: l) h → Q (.ok ()) ⟨s.theService, h⟩) :
    Good once Q (Lifecycle.setDhsAdapter this p) s := by
  refine good_loadDhsAdapter hl ?_
  have hold : Listed (ownedCell .adapter x ++ ((this, .service (x.map Prod.fst) c) :: l)) s.heap :=
    hl.count fun y => by simp only [List.count_append, List.count_cons]; omega
  refine good_deleteIf x LifeObj.adapter (fun _ => rfl) hold fun h hl => ?_
  exact good_storeDhsAdapter (f := .ret) hl hQ

/-- So is the cache. -/
theorem good_setMsgCache {Q : Except ε Unit → LifeState → Prop} {p : Option ObjPtr} (x : Option (ObjPtr × Int))
    (hl : Listed ((this, .service a (x.map Prod.fst)) :: (ownedCell .cache x ++ l)) s.heap)
    (hQ : ∀ h, Listed ((this, .service a p) :: l) h → Q (.ok ()) ⟨s.theService, h⟩) :
    Good once Q (Lifecycle.setMsgCache this p) s := by
  refine good_loadMsgCache hl ?_
  have hold : Listed (ownedCell .cache x ++ ((this, .service a (x.map Prod.fst)) :: l)) s.heap :=
    hl.count fun y => by simp only [List.count_append, List.count_cons]; omega
  refine good_deleteIf x LifeObj.cache (fun _ => rfl) hold fun h hl => ?_
  exact good_storeMsgCache (f := .ret) hl hQ

/-- A skeleton without functions is freed. -/
theorem good_free {Q : Except ε AxisStatus → LifeState → Prop} (hl : Listed ((skel, .skeleton none) :: l) s.heap)
    (hQ : ∀ h, Listed l h → Q (.ok .SUCCESS) ⟨s.theService, h⟩) : Good once Q (Lifecycle.free (some skel)) s := by
  refine ⟨⟨has_head hl, nofun⟩, ?_⟩
  rintro funcs _ ⟨hfuncs, rfl⟩
  obtain rfl := LifeObj.skeleton.inj (Option.some.inj (hl.head.symm.trans hfuncs))
  exact good_delete (f := fun _ => .ret AxisStatus.SUCCESS) hl rfl hQ

/-- **A service is deleted** with what it owns. -/
theorem good_deleteService {Q : Except ε Unit → LifeState → Prop} {v : ServiceView} (hl : Listed (v.cells ++ l) s.heap)
    (hQ : ∀ h, Listed l h → Q (.ok ()) ⟨s.theService, h⟩) : Good once Q (deleteService v.ptr) s := by
  let self : ObjPtr × LifeObj := (v.ptr, .service (v.adapter.map Prod.fst) (v.cache.map Prod.fst))
  have hself : Listed (self :: (ownedCell .adapter v.adapter ++ ownedCell .cache v.cache ++ l)) s.heap := hl
  refine good_loadDhsAdapter hself ?_
  have hadapter : Listed (ownedCell .adapter v.adapter ++ (self :: (ownedCell .cache v.cache ++ l))) s.heap :=
    hself.count fun x => by simp only [List.count_append, List.count_cons]; omega
  refine good_deleteIf v.adapter LifeObj.adapter (fun _ => rfl) hadapter fun h hl => ?_
  refine good_loadMsgCache hl ?_
  have hcache : Listed (ownedCell .cache v.cache ++ (self :: l)) h :=
    hl.count fun x => by simp only [List.count_append, List.count_cons]; omega
  exact good_deleteIf v.cache LifeObj.cache (fun _ => rfl) hcache fun h hl => good_delete (f := .ret) hl rfl hQ

end Accesses

/-! ## Single calls -/

section Calls

variable {once : Prop} {v : LifeView} {s : LifeState}

/-- How a call should end that begins with what the view says. -/
def Ended (v : LifeView) (c : AxisCall) (x : Except c.Err c.Ret) (s : LifeState) : Prop :=
  ∃ v', Moves v c x v' ∧ v'.Describes s

/-- Where the service has no adapter there is none. -/
theorem no_adapter {v : ServiceView} {skeletons : List ObjPtr} (h : (⟨some v, skeletons⟩ : LifeView).Describes s)
    (hnone : v.adapter = none) (q : ObjPtr) : ¬s.Has .adapter q := by
  rw [has_iff h.heap]
  rintro ⟨o, hmem, hkind⟩
  simp only [LifeView.cells, ServiceView.cells, ownedCell, skeletonCells, hnone, Option.map_some, Option.getD_some,
    Option.map_none, Option.toList_none, List.nil_append, List.cons_append, List.mem_cons, List.mem_append, List.mem_map,
    Option.mem_toList, Option.map_eq_some_iff, Prod.mk.injEq] at hmem
  rcases hmem with ⟨_, rfl⟩ | ⟨_, _, _, rfl⟩ | ⟨_, _, _, rfl⟩ <;> cases hkind

/-- A skeleton is one of those that the framework has. -/
theorem skeleton_mem {p : ObjPtr} (h : v.Describes s) (hp : s.Has .skeleton p) : p ∈ v.skeletons := by
  obtain ⟨service, skeletons⟩ := v
  obtain ⟨o, hmem, hkind⟩ := (has_iff h.heap).1 hp
  rcases List.mem_append.1 hmem with hmem | hmem
  · cases service with
    | none => cases hmem
    | some v =>
      simp only [ServiceView.cells, ownedCell, Option.map_some, Option.getD_some, List.mem_cons, List.mem_append,
        Option.mem_toList, Option.map_eq_some_iff, Prod.mk.injEq] at hmem
      rcases hmem with ⟨_, rfl⟩ | ⟨_, _, _, rfl⟩ | ⟨_, _, _, rfl⟩ <;> cases hkind
  · obtain ⟨q, hq, heq⟩ := List.mem_map.1 hmem
    obtain ⟨rfl, _⟩ := Prod.mk.inj heq
    exact hq

/-- Giving a skeleton back. -/
theorem skeleton_head {p : ObjPtr} (h : v.Describes s) (hp : s.Has .skeleton p) :
    Listed ((p, .skeleton none) :: (⟨v.service, v.skeletons.erase p⟩ : LifeView).cells) s.heap := by
  have hperm : (skeletonCells v.skeletons).Perm (skeletonCells (p :: v.skeletons.erase p)) :=
    (List.perm_cons_erase (skeleton_mem h hp)).map _
  refine h.heap.count fun x => ?_
  rw [LifeView.cells, LifeView.cells, List.count_append, hperm.count_eq]
  simp only [skeletonCells, List.map_cons, List.count_cons, List.count_append]
  omega

theorem good_getInstance (h : v.Describes s) :
    Good once (Ended v .getInstance) (AxisCall.prog .getInstance) s := by
  obtain ⟨service, skeletons⟩ := v
  obtain ⟨hthe, hl⟩ := h
  have hskel : ∀ {l : List (ObjPtr × LifeObj)} {s : LifeState} (w : LifeView), Listed l s.heap →
      s.theService = w.service.map ServiceView.ptr →
      (∀ p, Moves ⟨service, skeletons⟩ .getInstance (.ok p) ⟨w.service, p :: w.skeletons⟩) → l = w.cells →
      Good once (Ended ⟨service, skeletons⟩ .getInstance) (new (.skeleton none)) s := by
    rintro l s w hl hthe hmoves rfl
    refine good_new (f := .ret) hl nofun fun p h hl => ⟨_, hmoves p, hthe, hl.count fun x => ?_⟩
    simp only [LifeView.cells, skeletonCells, List.map_cons, List.count_append, List.count_cons]
    omega
  refine good_getTheService ?_
  cases service with
  | none =>
    rw [hthe]
    refine good_new hl nofun fun p h hl => good_setTheService ?_
    exact hskel ⟨some ⟨p, none, none⟩, skeletons⟩ hl rfl (fun skel => .created skeletons p skel) rfl
  | some v =>
    rw [hthe]
    exact hskel ⟨some v, skeletons⟩ hl hthe (fun skel => .instance v skeletons skel) rfl

/-- **Configuring a service** gives it a new adapter and a new cache. -/
theorem good_initWithConfig {cenv : ConfEnv} {conf : Conf} (h : v.Describes s)
    (hfair : (AxisCall.initWithConfig cenv conf).Fair once s) :
    Good once (Ended v (.initWithConfig cenv conf)) (AxisCall.prog (.initWithConfig cenv conf)) s := by
  obtain ⟨service, skeletons⟩ := v
  obtain ⟨hthe, hl⟩ := h
  refine good_getTheService ?_
  rw [hthe]
  cases service with
  | none => exact ⟨_, .notCreated cenv conf skeletons, hthe, hl⟩
  | some v =>
    refine meets_bind.2 (meets_lift.2 ?_)
    cases hconf : DhsService.stubInitWithConfig cenv true conf with
    | error e => exact ⟨_, .badConfig cenv conf v skeletons e hconf, hthe, hl⟩
    | ok conf' =>
      have hnone : once → ∀ q, ¬s.Has .adapter q := by
        intro hone
        obtain ⟨c, hthis⟩ := hfair hone v.ptr hthe
        have hself : s.heap v.ptr = some (.service (v.adapter.map Prod.fst) (v.cache.map Prod.fst)) :=
          hl.cell.2 List.mem_cons_self
        obtain ⟨hadapter, _⟩ := LifeObj.service.inj (Option.some.inj (hself.symm.trans hthis))
        exact no_adapter ⟨hthe, hl⟩ (Option.map_eq_none_iff.1 hadapter)
      refine good_new hl (fun _ _ => hnone) fun p h hl => meets_bind.2 ?_
      have hold : Listed ((v.ptr, .service (v.adapter.map Prod.fst) (v.cache.map Prod.fst)) ::
          (ownedCell .adapter v.adapter ++ ((p, .adapter conf'.dhsAdapter) ::
            (ownedCell .cache v.cache ++ skeletonCells skeletons)))) h := hl.count fun x => by
        simp only [LifeView.cells, ServiceView.cells, Option.map_some, Option.getD_some, List.cons_append,
          List.count_append, List.count_cons]
        omega
      refine good_setDhsAdapter v.adapter hold fun h hl => ?_
      refine good_new hl nofun fun q h hl => meets_bind.2 ?_
      have hold : Listed ((v.ptr, .service (some p) (v.cache.map Prod.fst)) ::
          (ownedCell .cache v.cache ++ ((q, .cache conf'.msgCache.validAge) :: (p, .adapter conf'.dhsAdapter) ::
            skeletonCells skeletons))) h := hl.count fun x => by
        simp only [List.count_append, List.count_cons]
        omega
      refine good_setMsgCache v.cache hold fun h hl => ?_
      refine ⟨_, .configured cenv conf v skeletons conf' p q hconf, hthe, hl.count fun x => ?_⟩
      simp only [LifeView.cells, ServiceView.cells, ownedCell, Option.map_some, Option.getD_some, Option.toList_some,
        List.cons_append, List.nil_append, List.count_cons]
      omega

/-- What a request asks of the service, an object of the service does. -/
theorem good_methods {v : ServiceView} {skeletons : List ObjPtr} {a c : ObjPtr}
    (h : (⟨some v, skeletons⟩ : LifeView).Describes s) (hthis : s.heap v.ptr = some (.service (some a) (some c)))
    (cmd : SvcCmd) : Good once (fun _ s' => s' = s) (methods v.ptr cmd) s := by
  have hself : s.heap v.ptr = some (.service (v.adapter.map Prod.fst) (v.cache.map Prod.fst)) :=
    h.heap.cell.2 List.mem_cons_self
  obtain ⟨hadapter, hcache⟩ := LifeObj.service.inj (Option.some.inj (hself.symm.trans hthis))
  have hmethod : ∀ {k : ObjKind} {p : ObjPtr}, s.Has k p → cmd.object = some k →
      Good once (fun _ s' => s' = s) (method (ε := Empty) (some p) cmd) s := by
    intro k p hp hk
    refine ⟨⟨fun k' hk' => ⟨p, rfl, ?_⟩, nofun⟩, fun _ _ hs => hs⟩
    cases hk.symm.trans hk'
    exact hp
  have hadapters : cmd.object = some .adapter →
      Good once (fun _ s' => s' = s) (loadDhsAdapter (ε := Empty) v.ptr >>= fun p => method p cmd) s := by
    refine fun hk => good_loadDhsAdapter h.heap ?_
    obtain ⟨⟨p, choice⟩, hadapter, _⟩ := Option.map_eq_some_iff.1 hadapter
    rw [hadapter]
    exact hmethod ⟨.adapter choice, h.heap.cell.2 (by simp [LifeView.cells, ServiceView.cells, ownedCell, hadapter]), rfl⟩ hk
  have hcaches : cmd.object = some .cache →
      Good once (fun _ s' => s' = s) (loadMsgCache (ε := Empty) v.ptr >>= fun p => method p cmd) s := by
    refine fun hk => good_loadMsgCache h.heap ?_
    obtain ⟨⟨p, deltat⟩, hcache, _⟩ := Option.map_eq_some_iff.1 hcache
    rw [hcache]
    exact hmethod ⟨.cache deltat, h.heap.cell.2 (by simp [LifeView.cells, ServiceView.cells, ownedCell, hcache]), rfl⟩ hk
  cases cmd with
  | time => exact ⟨⟨nofun, nofun⟩, fun _ _ hs => hs⟩
  | purgeOldMessages | «exists» | add => exact hcaches rfl
  | createImage | setImageLifeTime | setImageContrib | setImageKeywords => exact hadapters rfl

/-- **Requests** are served by the objects of the service. -/
theorem good_invoke {env : Env} {req : AxiomNode} (h : v.Describes s) (hfair : (AxisCall.invoke env req).Fair once s) :
    Good once (Ended v (.invoke env req)) (AxisCall.prog (.invoke env req)) s := by
  obtain ⟨service, skeletons⟩ := v
  obtain ⟨hthe, hl⟩ := h
  refine good_getTheService ?_
  rw [hthe]
  cases service with
  | none => exact ⟨_, .refused env req skeletons, hthe, hl⟩
  | some v =>
    obtain ⟨a, c, hthis⟩ := hfair v.ptr hthe
    refine (meets_plug (I := fun s' => s' = s) ?_ (serve env req) rfl).mono ?_
    · rintro cmd _ rfl
      exact good_methods ⟨hthe, hl⟩ hthis cmd
    · rintro x _ rfl
      exact ⟨_, .served env req v skeletons x, hthe, hl⟩

theorem good_freeCall {skel : Option ObjPtr} (h : v.Describes s) (hfair : (AxisCall.free skel).Fair once s) :
    Good once (Ended v (.free skel)) (AxisCall.prog (.free skel)) s := by
  obtain ⟨service, skeletons⟩ := v
  have hdesc := h
  obtain ⟨hthe, hl⟩ := h
  refine good_getTheService ?_
  rw [hthe]
  cases service with
  | none => exact ⟨_, .lost skel skeletons, hthe, hl⟩
  | some v =>
    cases skel with
    | none => exact ⟨_, .freed v none skeletons, hthe, hl⟩
    | some skel =>
      refine good_free (skeleton_head hdesc hfair) fun h hl => ?_
      exact ⟨_, .freed v (some skel) skeletons, hthe, hl⟩

/-- **A removal** deletes the service. -/
theorem good_removeInstance {skel : Option ObjPtr} (h : v.Describes s) (hfair : (AxisCall.removeInstance skel).Fair once s) :
    Good once (Ended v (.removeInstance skel)) (AxisCall.prog (.removeInstance skel)) s := by
  cases skel with
  | none => exact ⟨_, .ignored v, h⟩
  | some skel =>
    obtain ⟨service, skeletons⟩ := v
    have hdesc := h
    obtain ⟨hthe, hl⟩ := h
    refine good_getTheService ?_
    rw [hthe]
    cases service with
    | none => exact ⟨_, .notThere skel skeletons, hthe, hl⟩
    | some v =>
      refine meets_bind.2 (good_free (skeleton_head hdesc hfair) fun h hl => meets_bind.2 ?_)
      refine good_deleteService hl fun h hl => ?_
      refine good_setTheService (f := fun _ => .ret AxisStatus.SUCCESS) ?_
      exact ⟨_, .removed v skel skeletons, rfl, hl⟩

/-- **Every call** does what the view says. -/
theorem good_call (c : AxisCall) (h : v.Describes s) (hfair : c.Fair once s) : Good once (Ended v c) c.prog s := by
  cases c with
  | getInstance => exact good_getInstance h
  | initWithConfig cenv conf => exact good_initWithConfig h hfair
  | invoke env req => exact good_invoke h hfair
  | free skel => exact good_freeCall h hfair
  | removeInstance skel => exact good_removeInstance h hfair

end Calls

/-! ## Lives -/

section Lives

variable {once : Prop} {evs : List AxisEvent} {s : LifeState}

/-- In every life the heap is as the views say. -/
theorem described (h : Lifetime once evs s) : ∃ v, Views evs v ∧ v.Describes s := by
  induction h with
  | nil => exact ⟨_, .start, rfl, .empty⟩
  | call _ hfair hend hx ih =>
    obtain ⟨v, hviews, hv⟩ := ih
    obtain ⟨v', hmoves, hv'⟩ := (good_call _ hv hfair).ends hend hx
    exact ⟨v', .call hviews hmoves, hv'⟩

/-- **Every life**: between the calls the heap is as the view says, and in the next call every access is defined. -/
theorem lifecycle (h : Lifetime once evs s) :
    (∃ v, Views evs v ∧ v.Describes s) ∧
      ∀ (c : AxisCall) (acts : List (Act LifeSig)) (cmd : LifeCmd) (k : cmd.Resp → Life c.Err c.Ret) (s' : LifeState),
        c.Fair once s → Path c.prog acts (.call (S := LifeSig) cmd k) → Exec lifeSem s (acts.map (Event.mk ())) s' →
        cmd.May once s' := by
  obtain ⟨v, hviews, hv⟩ := described h
  exact ⟨⟨v, hviews, hv⟩, fun c acts cmd k s' hfair hpath hx => (good_call c hv hfair).next hpath hx⟩

/-! ## After a removal -/

theorem views_snoc {e : AxisEvent} {v' : LifeView} (h : Views (evs ++ [e]) v') :
    ∃ v, Views evs v ∧ Moves v e.call e.result v' := by
  generalize hevs : evs ++ [e] = evs' at h
  cases h with
  | start => exact absurd hevs (by simp)
  | call h hmoves =>
    obtain ⟨rfl, he⟩ := List.append_inj' hevs rfl
    obtain rfl := List.singleton_inj.1 he
    exact ⟨_, h, hmoves⟩

/-- A removal leaves no service. -/
theorem Moves.without {v v' : LifeView} {skel : ObjPtr} {x : Except Empty AxisStatus}
    (h : Moves v (.removeInstance (some skel)) x v') : v'.service = none := by
  cases h <;> rfl

/-- How a call ends that finds no service. -/
def AxisEvent.Refused : AxisEvent → Prop
  | ⟨.getInstance, _⟩ => False
  | ⟨.initWithConfig _ _, x⟩ => x = .ok .FAILURE
  | ⟨.invoke _ _, x⟩ => x = .ok (some internalError)
  | ⟨.free _, x⟩ => x = .ok .FAILURE
  | ⟨.removeInstance _, x⟩ => x = .ok .FAILURE

/-- Looking for the service finds none. -/
theorem good_noService {ε α : Type} {Q : Except ε α → LifeState → Prop} {f : Option ObjPtr → Life ε α}
    (hnone : s.theService = none) (h : Good once Q (f none) s) : Good once Q (getTheService >>= f) s := by
  refine good_getTheService ?_
  rw [hnone]
  exact h

/-- A call that finds no service is refused, and has no effect. -/
theorem good_refused (c : AxisCall) (hc : c ≠ .getInstance) (hnone : s.theService = none) :
    Good once (fun x s' => s' = s ∧ AxisEvent.Refused ⟨c, x⟩) c.prog s := by
  cases c with
  | getInstance => exact absurd rfl hc
  | initWithConfig cenv conf => exact good_noService hnone ⟨rfl, rfl⟩
  | invoke env req => exact good_noService hnone ⟨rfl, rfl⟩
  | free skel => exact good_noService hnone ⟨rfl, rfl⟩
  | removeInstance skel =>
    cases skel with
    | none => exact ⟨rfl, rfl⟩
    | some skel => exact good_noService hnone ⟨rfl, rfl⟩

/-- **Without a service** nothing changes until an instance is asked for. -/
theorem Calls.refused {later : List AxisEvent} {s' : LifeState} (h : Calls once s later s') (hnone : s.theService = none)
    (hlater : ∀ e ∈ later, e.call ≠ .getInstance) : s' = s ∧ ∀ e ∈ later, e.Refused := by
  induction h with
  | nil => exact ⟨rfl, fun e he => absurd he List.not_mem_nil⟩
  | @call evs _ _ c x _ _ _ hend hx ih =>
    obtain ⟨rfl, hrefused⟩ := ih fun e he => hlater e (List.mem_append_left _ he)
    have hc : c ≠ .getInstance := hlater ⟨c, x⟩ (by simp)
    have hgood : Good once (fun x s' => s' = _ ∧ AxisEvent.Refused ⟨c, x⟩) c.prog _ := good_refused c hc hnone
    obtain ⟨hsame, hlast⟩ := hgood.ends hend hx
    refine ⟨hsame, fun e he => ?_⟩
    rcases List.mem_append.1 he with he | he
    · exact hrefused e he
    · obtain rfl := List.mem_singleton.1 he
      exact hlast

/-- **After a removal** nothing but skeletons is left, and until the next instance every call is refused and leaves all as
it is. -/
theorem removal_final {skel : ObjPtr} {x : Except Empty AxisStatus} {later : List AxisEvent} {s' : LifeState}
    (h : Lifetime once (evs ++ [⟨.removeInstance (some skel), x⟩]) s) (hcalls : Calls once s later s')
    (hlater : ∀ e ∈ later, e.call ≠ .getInstance) :
    s.theService = none ∧ (∀ k p, s.Has k p → k = .skeleton) ∧ s' = s ∧ ∀ e ∈ later, e.Refused := by
  obtain ⟨⟨service, skeletons⟩, hviews, hdescribes⟩ := described h
  obtain ⟨_, _, hmoves⟩ := views_snoc hviews
  obtain rfl : service = none := hmoves.without
  refine ⟨hdescribes.theService, fun k p hp => ?_, hcalls.refused hdescribes.theService hlater⟩
  obtain ⟨o, hmem, rfl⟩ := (has_iff hdescribes.heap).1 hp
  obtain ⟨q, _, heq⟩ := List.mem_map.1 (show (p, o) ∈ skeletonCells skeletons from hmem)
  obtain ⟨_, rfl⟩ := Prod.mk.inj heq
  rfl

end Lives

/-! ## A life -/

/-- Creating, configuring and removing a service. -/
def createActs : List (Act LifeSig) :=
  [⟨.getTheService, none⟩, ⟨.new (.service none none), (⟨0⟩ : ObjPtr)⟩, ⟨.setTheService (some ⟨0⟩), ()⟩,
   ⟨.new (.skeleton none), (⟨1⟩ : ObjPtr)⟩]

def configureActs : List (Act LifeSig) :=
  [⟨.getTheService, some ⟨0⟩⟩, ⟨.new (.adapter ⟨false, "dhs-http", "localhost", "dataServer"⟩), (⟨2⟩ : ObjPtr)⟩,
   ⟨.getDhsAdapter ⟨0⟩, none⟩, ⟨.setDhsAdapter ⟨0⟩ (some ⟨2⟩), ()⟩, ⟨.new (.cache 0), (⟨3⟩ : ObjPtr)⟩,
   ⟨.getMsgCache ⟨0⟩, none⟩, ⟨.setMsgCache ⟨0⟩ (some ⟨3⟩), ()⟩]

def instanceActs : List (Act LifeSig) :=
  [⟨.getTheService, some ⟨0⟩⟩, ⟨.new (.skeleton none), (⟨4⟩ : ObjPtr)⟩]

def removeActs : List (Act LifeSig) :=
  [⟨.getTheService, some ⟨0⟩⟩, ⟨.getFuncArray ⟨1⟩, none⟩, ⟨.delete .skeleton ⟨1⟩, ()⟩, ⟨.getDhsAdapter ⟨0⟩, some ⟨2⟩⟩,
   ⟨.delete .adapter ⟨2⟩, ()⟩, ⟨.getMsgCache ⟨0⟩, some ⟨3⟩⟩, ⟨.delete .cache ⟨3⟩, ()⟩, ⟨.delete .service ⟨0⟩, ()⟩,
   ⟨.setTheService none, ()⟩]

/-- The calls up to a second instance. -/
def configuredCalls : List AxisEvent :=
  [⟨.getInstance, .ok ⟨1⟩⟩, ⟨.initWithConfig wordEnv wordConf, .ok .SUCCESS⟩, ⟨.getInstance, .ok ⟨4⟩⟩]

/-- A service that was created and configured. -/
theorem configured_life : ∃ s, Lifetime True configuredCalls s ∧ s.Has .skeleton ⟨1⟩ ∧
    ∃ s', Exec lifeSem s (removeActs.map (Event.mk ())) s' ∧ s'.Has .skeleton ⟨4⟩ := by
  have hcreate : Ends (AxisCall.prog .getInstance) createActs (.ok (⟨1⟩ : ObjPtr)) := by
    repeat first | exact Path.nil _ | apply Path.cons
  have hconfigure : Ends (AxisCall.prog (.initWithConfig wordEnv wordConf)) configureActs (.ok .SUCCESS) := by
    repeat first | exact Path.nil _ | apply Path.cons
  have hinstance : Ends (AxisCall.prog .getInstance) instanceActs (.ok (⟨4⟩ : ObjPtr)) := by
    repeat first | exact Path.nil _ | apply Path.cons
  obtain ⟨s₁, hs₁, hx₁⟩ : ∃ s₁ : LifeState,
      s₁ = ⟨some ⟨0⟩, (Cells.none.new ⟨0⟩ (.service none none)).new ⟨1⟩ (.skeleton none)⟩ ∧
      Exec lifeSem ⟨none, .none⟩ (createActs.map (Event.mk ())) s₁ :=
    ⟨_, rfl, _, ⟨rfl, rfl⟩, _, ⟨rfl, rfl⟩, _, rfl, _, ⟨rfl, rfl⟩, rfl⟩
  subst hs₁
  have hfair : (AxisCall.initWithConfig wordEnv wordConf).Fair True
      ⟨some ⟨0⟩, (Cells.none.new ⟨0⟩ (.service none none)).new ⟨1⟩ (.skeleton none)⟩ := by
    rintro - p hp
    cases hp
    exact ⟨none, rfl⟩
  exact ⟨_, ((Calls.nil.call (c := .getInstance) trivial hcreate hx₁).call hfair hconfigure
    ⟨_, ⟨rfl, rfl⟩, _, ⟨rfl, rfl⟩, _, ⟨⟨none, rfl⟩, rfl⟩, _, ⟨none, none, rfl, rfl⟩, _, ⟨rfl, rfl⟩, _, ⟨⟨some ⟨2⟩, rfl⟩, rfl⟩,
      _, ⟨some ⟨2⟩, none, rfl, rfl⟩, rfl⟩).call (c := .getInstance) trivial hinstance
    ⟨_, ⟨rfl, rfl⟩, _, ⟨rfl, rfl⟩, rfl⟩, ⟨.skeleton none, rfl, rfl⟩,
    _, ⟨_, ⟨rfl, rfl⟩, _, ⟨rfl, rfl⟩, _, rfl, _, ⟨⟨some ⟨3⟩, rfl⟩, rfl⟩, _, rfl, _, ⟨⟨some ⟨2⟩, rfl⟩, rfl⟩, _, rfl,
      _, rfl, _, rfl, rfl⟩, ⟨.skeleton none, rfl, rfl⟩⟩

theorem lifecycle_configured : ∃ s, Lifetime True configuredCalls s ∧
    ∃ v, Views configuredCalls v ∧ v.Describes s := by
  obtain ⟨s, hlife, _⟩ := configured_life
  exact ⟨s, hlife, (lifecycle hlife).1⟩

/-- What the framework still calls after a removal. -/
def laterCalls : List AxisEvent :=
  [⟨.initWithConfig wordEnv wordConf, .ok .FAILURE⟩, ⟨.invoke plainEnv objectRequest, .ok (some internalError)⟩,
    ⟨.free (some ⟨4⟩), .ok .FAILURE⟩, ⟨.removeInstance (some ⟨4⟩), .ok .FAILURE⟩]

/-- All that such a call does. -/
def lookActs : List (Act LifeSig) :=
  [⟨.getTheService, none⟩]

/-- They are refused. -/
theorem later_calls {s : LifeState} (hnone : s.theService = none) (hskel : s.Has .skeleton ⟨4⟩) :
    Calls True s laterCalls s := by
  have hlook : Exec lifeSem s (lookActs.map (Event.mk ())) s := ⟨s, ⟨hnone.symm, rfl⟩, rfl⟩
  have hservice : ∀ p, s.theService = some p → False := fun p hp => nomatch hnone.symm.trans hp
  have hconfigure : Ends (AxisCall.prog (.initWithConfig wordEnv wordConf)) lookActs (.ok .FAILURE) := .cons _ (.nil _)
  have hinvoke : Ends (AxisCall.prog (.invoke plainEnv objectRequest)) lookActs (.ok (some internalError)) :=
    .cons _ (.nil _)
  have hfree : Ends (AxisCall.prog (.free (some ⟨4⟩))) lookActs (.ok .FAILURE) := .cons _ (.nil _)
  have hremove : Ends (AxisCall.prog (.removeInstance (some ⟨4⟩))) lookActs (.ok .FAILURE) := .cons _ (.nil _)
  have hconfigured : Calls True s [⟨.initWithConfig wordEnv wordConf, .ok .FAILURE⟩] s :=
    Calls.nil.call (fun _ p hp => (hservice p hp).elim) hconfigure hlook
  have hinvoked := hconfigured.call (c := .invoke plainEnv objectRequest) (fun p hp => (hservice p hp).elim) hinvoke hlook
  have hfreed := hinvoked.call (c := .free (some ⟨4⟩)) hskel hfree hlook
  exact hfreed.call (c := .removeInstance (some ⟨4⟩)) hskel hremove hlook

theorem removal_final_configured : ∃ s s',
    Lifetime True (configuredCalls ++ [⟨.removeInstance (some ⟨1⟩), .ok .SUCCESS⟩]) s ∧ Calls True s laterCalls s' ∧
    s.theService = none ∧ (∀ k p, s.Has k p → k = .skeleton) ∧ s' = s ∧ ∀ e ∈ laterCalls, e.Refused := by
  obtain ⟨s, hlife, hskel, s', hx, hkept⟩ := configured_life
  have hend : Ends (AxisCall.prog (.removeInstance (some ⟨1⟩))) removeActs (.ok .SUCCESS) := by
    repeat first | exact Path.nil _ | apply Path.cons
  have hremoved : Lifetime True (configuredCalls ++ [⟨.removeInstance (some ⟨1⟩), .ok .SUCCESS⟩]) s' :=
    hlife.call hskel hend hx
  have hlater := later_calls (removal_final hremoved .nil (by simp)).1 hkept
  exact ⟨s', s', hremoved, hlater, removal_final hremoved hlater (by simp [laterCalls])⟩

end DhsTranslator
