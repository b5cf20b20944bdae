import ReplicaRouting.Router.Run
/-!
What a router is made of stays as it is, whatever is asked of it: only news from the oracle and new
collaborators change it. So the primary at each call is the one that was announced last. What only looks
for a target leaves the cells alone too.
-/

namespace ReplicaRouting

open Net (SocketAddress)
open Result (Context Outcome)

structure Setup where
  name : String
  id : UInt32
  policy : Policy
  oracle : Oracle
  collaborators : Collaborators

/-- What a router keeps about its cells: the cells, the listeners that wait, and what is owed. -/
structure Books where
  cells : List (Result.Cell Engine.Reply)
  waiting : List (Result.Registered Engine.Reply)
  byEngine : List Nat
  byClient : List (Engine.Read × Nat)
  byPersistence : List Nat

namespace Router
variable (r : Router)

def setup : Setup := ⟨r.name, r.id, r.policy, r.oracle, r.collaborators⟩

def books : Books :=
  ⟨r.net.cells, r.net.waiting, r.owedByEngine, r.owedByClient, r.owedByPersistence⟩

/-! ### What leaves both alone -/

/-- At most the handle, the shutdown and the notes differ. -/
structure Keeps (r r' : Router) : Prop where
  setup : r'.setup = r.setup
  books : r'.books = r.books

section Keeps
variable {r} {r' r'' : Router}

theorem Keeps.trans (h : r.Keeps r') (h' : r'.Keeps r'') : r.Keeps r'' :=
  ⟨h'.setup.trans h.setup, h'.books.trans h.books⟩

theorem Keeps.log (h : r.Keeps r') (x : Log.Record) : r.Keeps (r'.log x) := ⟨h.setup, h.books⟩

theorem Keeps.count (h : r.Keeps r') (f : Metrics → Metrics) : r.Keeps (r'.count f) :=
  ⟨h.setup, h.books⟩

theorem Keeps.record (h : r.Keeps r') (c : Call) : r.Keeps (r'.record c) := ⟨h.setup, h.books⟩

theorem Keeps.reject (h : r.Keeps r') (op : Operation) (e : RouterError) (context : Context) :
    r.Keeps (r'.reject op e context) :=
  (h.count _).log _

end Keeps

theorem keeps_shutdown : r.Keeps r.shutdown.1 := by
  have h : r.Keeps { r with stopped := true, handle := none } := ⟨rfl, rfl⟩
  unfold shutdown
  split
  · exact ⟨rfl, rfl⟩
  · dsimp only
    split
    · exact (h.log _).record _
    · exact h.log _

theorem keeps_attach : r.Keeps r.attach.1 := by
  have h : r.Keeps r := ⟨rfl, rfl⟩
  unfold attach
  split
  · exact h
  · split
    · exact h
    · dsimp only
      have ha := h.record (.catalog r.name)
      split
      · exact ha
      · rename_i handle _
        have hh : r.Keeps { r.record (.catalog r.name) with handle := some handle } :=
          ⟨ha.setup, ha.books⟩
        exact (hh.count _).log _

theorem keeps_follow (handle : Option Handle) (plan : Plan) : r.Keeps (r.follow handle plan).1 := by
  unfold follow
  split
  · exact ⟨rfl, rfl⟩
  · exact ⟨rfl, rfl⟩
  · exact ⟨rfl, rfl⟩
  · exact r.keeps_attach

theorem keeps_resolveWith {ask : Router → Router × Snapshot} (h : r.Keeps (ask r).1)
    (op : Operation) :
    r.Keeps (resolveWith ask r op).1 := by
  unfold resolveWith
  split
  · exact ⟨rfl, rfl⟩
  · exact h.trans (keeps_follow ..)

theorem keeps_ask : r.Keeps r.ask.1 := by
  show r.Keeps r.interrupt
  have hi : r.Keeps { r with interruption := none } := ⟨rfl, rfl⟩
  unfold interrupt
  split
  · exact ⟨rfl, rfl⟩
  · exact hi.trans (keeps_shutdown _)
  · exact hi.trans (keeps_resolveWith _ ⟨rfl, rfl⟩ _)

theorem keeps_resolve (op : Operation) : r.Keeps (r.resolve op).1 :=
  r.keeps_resolveWith r.keeps_ask op

theorem keeps_localOnly (op : Operation) (context : Context) :
    r.Keeps (r.localOnly op context).1 := by
  have h := r.keeps_resolve op
  unfold localOnly
  generalize r.resolve op = resolved at h ⊢
  dsimp only
  split
  · exact h.reject ..
  · exact h
  · exact (h.count _).log _

theorem keeps_comparators : r.Keeps r.comparators.1 := by
  have hf : r.Keeps { r with net := (r.net.freshContext none).1 } := ⟨rfl, rfl⟩
  have h := hf.trans (keeps_localOnly _ .comparators (r.net.freshContext none).2)
  unfold comparators
  dsimp only
  split
  · exact h
  · exact h.record _

theorem keeps_logAll (records : List Log.Record) : r.Keeps (r.logAll records) := by
  have h : r.Keeps r := ⟨rfl, rfl⟩
  unfold logAll
  induction records generalizing r with
  | nil => exact h
  | cons record records ih => exact (h.log record).trans (ih (r.log record) ⟨rfl, rfl⟩)

/-! ### What leaves the setup alone -/

theorem setup_result (context : Context) (o : Option (Outcome Engine.Reply)) :
    (r.result context o).1.setup = r.setup := rfl

theorem setup_failed (e : RouterError) (context : Context) :
    (r.failed e context).1.setup = r.setup := rfl

theorem setup_owedByPersistence (cells : List Nat) :
    { r with owedByPersistence := cells }.setup = r.setup := rfl

theorem setup_serve (h : Handle) (request : Engine.Request) (context : Context) :
    (r.serve h request context).1.setup = r.setup := by
  unfold serve
  dsimp only
  split <;> rfl

theorem setup_send (address : SocketAddress) (database : String) (q : Engine.Read) :
    (r.send address database q).1.setup = r.setup := by
  unfold send
  dsimp only
  split <;> rfl

theorem setup_forward (address : SocketAddress) (database : String) (q : Engine.Read)
    (context : Context) :
    (r.forward address database q context).1.setup = r.setup := by
  have h := r.setup_send address database q
  unfold forward forwardWith
  generalize r.send address database q = sent at h ⊢
  exact h

theorem setup_read (q : Engine.Read) (context : Context) :
    (r.read q context).1.setup = r.setup := by
  have h := r.keeps_resolve q.operation
  unfold read readWith
  rw [forwardWith_deliver]
  generalize r.resolve q.operation = resolved at h ⊢
  dsimp only
  split
  · rw [setup_failed]
    exact (h.reject ..).setup
  · rw [setup_serve]
    exact ((h.count _).log _).setup
  · rw [setup_forward]
    exact ((h.count _).log _).setup

theorem setup_userDefined (u : Engine.UserLookup) (context : Context) :
    (r.userDefined u context).1.setup = r.setup := by
  have h := r.keeps_localOnly .userDefinedLookup context
  unfold userDefined
  generalize r.localOnly .userDefinedLookup context = found at h ⊢
  dsimp only
  split
  · rw [setup_failed]
    exact h.setup
  · rw [setup_serve]
    exact h.setup

theorem setup_insert (group : Engine.InsertGroup) (context : Context) :
    (r.insert group context).1.setup = r.setup := by
  have h := r.keeps_ask
  unfold insert
  split
  · exact setup_failed ..
  · generalize r.ask = asked at h ⊢
    dsimp only
    split
    · rw [setup_failed]
      exact (h.reject ..).setup
    · have hd := fun x c => (((h.count .countWrite).log x).record c).setup
      split
      · rw [setup_result]
        exact hd ..
      · rw [setup_owedByPersistence, setup_result]
        exact hd ..

theorem setup_settleOwed (cell : Option Nat) (o : Option (Outcome Engine.Reply)) :
    (r.settleOwed cell o).1.setup = r.setup := by
  unfold settleOwed settleOwedWith
  split
  · rfl
  · split
    · rfl
    · split <;> rfl

end Router

namespace RouterAction

def changes (s : Setup) : RouterAction → Setup
  | .setPrimary address => { s with oracle := (s.oracle.setPrimary address).1 }
  | .clearPrimary => { s with oracle := s.oracle.clearPrimary.1 }
  | .replace collaborators => { s with collaborators := collaborators }
  | _ => s

/-- The primary after an action. -/
def announces (primary : Option SocketAddress) : RouterAction → Option SocketAddress
  | .setPrimary address => some address
  | .clearPrimary => none
  | _ => primary

end RouterAction

namespace Oracle
variable (o : Oracle)

theorem primary_setPrimary (address : SocketAddress) :
    (o.setPrimary address).1.primary = some address := by
  cases o with
  | shared state =>
    unfold setPrimary RoleState.setPrimary
    -- an announcement of the present primary is no news
    by_cases h : state.primary = some address
    · simp only [h, if_true]
      exact h
    · simp only [h, if_false]
      rfl
  | custom primary own => rfl

theorem primary_clearPrimary : o.clearPrimary.1.primary = none := by
  cases o with
  | shared state =>
    unfold clearPrimary RoleState.clearPrimary
    dsimp only
    split
    · assumption
    · rfl
  | custom primary own => rfl

end Oracle

namespace Router
variable (r : Router)

theorem setup_perform (a : RouterAction) : (r.perform a).1.setup = a.changes r.setup := by
  cases a with
  | read q token => exact { r with net := (r.net.freshContext token).1 }.setup_read q _
  | userDefined u token =>
    exact { r with net := (r.net.freshContext token).1 }.setup_userDefined u _
  | comparators => exact r.keeps_comparators.setup
  | insert group token => exact { r with net := (r.net.freshContext token).1 }.setup_insert group _
  | singleInsert index key value token =>
    exact { r with net := (r.net.freshContext token).1 }.setup_insert _ _
  | singleDelete index key token =>
    exact { r with net := (r.net.freshContext token).1 }.setup_insert _ _
  | forward address database q token =>
    exact { r with net := (r.net.freshContext token).1 }.setup_forward address database q _
  | plan op => exact r.keeps_ask.setup
  | resolve op => exact (r.keeps_resolve op).setup
  | role => exact r.keeps_ask.setup
  | shutdown => exact r.keeps_shutdown.setup
  | setPrimary address =>
    exact (keeps_logAll { r with oracle := (r.oracle.setPrimary address).1 } _).setup
  | clearPrimary => exact (keeps_logAll { r with oracle := r.oracle.clearPrimary.1 } _).setup
  | engineAnswers n reply => exact r.setup_settleOwed ..
  | clientAnswers n reply => exact r.setup_settleOwed ..
  | persistenceAnswers n reply => exact r.setup_settleOwed ..
  | replace | interrupt | listen | poll => rfl

theorem setup_run (as : List RouterAction) :
    (r.run as).1.setup = as.foldl (fun s a => a.changes s) r.setup := by
  induction as generalizing r with
  | nil => rfl
  | cons a as ih =>
    rw [List.foldl_cons, ← setup_perform]
    exact ih (r.perform a).1

theorem primary_perform (a : RouterAction) :
    (r.perform a).1.oracle.primary = a.announces r.oracle.primary := by
  have h : (r.perform a).1.oracle = (a.changes r.setup).oracle :=
    congrArg Setup.oracle (r.setup_perform a)
  rw [h]
  cases a with
  | setPrimary address => exact r.oracle.primary_setPrimary address
  | clearPrimary => exact r.oracle.primary_clearPrimary
  | _ => rfl

/-- However long the run, the oracle names the primary that was announced last. -/
theorem primary_run (as : List RouterAction) :
    (r.run as).1.oracle.primary = as.foldl (fun p a => a.announces p) r.oracle.primary := by
  induction as generalizing r with
  | nil => rfl
  | cons a as ih =>
    rw [List.foldl_cons, ← primary_perform]
    exact ih (r.perform a).1

end Router
end ReplicaRouting
