import BitcoinPriceTracker.Model.Admission
import BitcoinPriceTracker.Proofs.ServerSteps

namespace BitcoinPriceTracker

variable {P : Platform} {path : DbPath} {maxViewers : ℕ} {t t' : Tracker} {b : TrackerAction} {input : TrackerInput}

/-- The handler that a request is routed to, at its first step. -/
def Request.handler (reader : ℕ) : Request → Handler
  | price => .starting none
  | presence payload => .updating payload
  | news => .news reader
  | health => .checking
  | other => .other

/-- Nothing is sent by the step. -/
def TrackerAction.Silent (b : TrackerAction) : Prop := ∀ connection answer, b ≠ .answered connection answer

/-- What a step does with the handler of its connection. -/
inductive HandlerStep (P : Platform) (path : DbPath) (maxViewers : ℕ) (t : Tracker) (connection : ℕ) :
    TrackerInput → TrackerAction → Handler → Option Handler → Prop
  | requested {request : Request} {b : TrackerAction} (hb : b.Silent) :
    HandlerStep P path maxViewers t connection (.request connection request) b .waiting
      (some (request.handler t.news.nextId))
  | refused {busy : Bool} :
    HandlerStep P path maxViewers t connection (.refuse connection busy) (.handled connection) .waiting
      (some (.answering (.refused busy)))
  | updated {payload : PresencePayload} {server : Server} {a : ServerAction}
      (hs : (serverMachine P path maxViewers).step t.server (.presence payload) = some (server, a)) :
    HandlerStep P path maxViewers t connection (.update connection) (.server a) (.updating payload)
      (some (Tracker.afterUpdate payload a))
  | started {activeViewers : Option ℕ} {a : ServerAction} :
    HandlerStep P path maxViewers t connection (.start connection) (.server a) (.starting activeViewers)
      (some (.reading t.server.nextId activeViewers))
  | read {id : ℕ} {activeViewers : Option ℕ} {i : ServerInput} {a : ServerAction} (ha : a.actor = some (.read id)) :
    HandlerStep P path maxViewers t connection (.read connection i) (.server a) (.reading id activeViewers)
      (Tracker.afterRead id activeViewers a)
  | readNews {reader : ℕ} {a : News.Action} :
    HandlerStep P path maxViewers t connection (.readNews connection) (.news a) (.news reader)
      (some (Tracker.afterNews reader a))
  | checked {F : Faults} :
    HandlerStep P path maxViewers t connection (.check connection F) (.handled connection) .checking
      (some (.answering (.health ((loadPriceState P).atomically F t.server.db).1)))
  | expired {handler : Handler} {b : TrackerAction} (htimed : Tracker.timed handler = true) (hb : b.Silent) :
    HandlerStep P path maxViewers t connection (.expire connection) b handler (some (.answering .deadline))
  | answered {answer : Answer} :
    HandlerStep P path maxViewers t connection (.answer connection) (.answered connection answer) (.answering answer)
      none
  | closed {handler : Handler} {b : TrackerAction} (hb : b.Silent) :
    HandlerStep P path maxViewers t connection (.close connection) b handler none

/-- The connections and their handlers in a step of the process. -/
inductive ConnectionStep (P : Platform) (path : DbPath) (maxViewers : ℕ) (t t' : Tracker) (input : TrackerInput)
    (b : TrackerAction) : Prop
  | accepted (hinput : input = .accept) (hb : b = .accepted t.nextConnection) (hphase : t.phase = .accepting)
      (ht : t' = { t with nextConnection := t.nextConnection + 1 }.setConnection t.nextConnection (some .waiting)) :
    ConnectionStep P path maxViewers t t' input b
  | kept (hb : b.Silent) (haccept : input ≠ .accept) (hinput : input.connection = none)
      (hconnections : t'.connections = t.connections) (hnext : t'.nextConnection = t.nextConnection) :
    ConnectionStep P path maxViewers t t' input b
  | moved {connection : ℕ} {old : Handler} {new : Option Handler} (hold : t.connections connection = some old)
      (hs : HandlerStep P path maxViewers t connection input b old new)
      (hconnections : t'.connections = Function.update t.connections connection new)
      (hnext : t'.nextConnection = t.nextConnection) :
    ConnectionStep P path maxViewers t t' input b

section Steps

variable {connection : ℕ}

lemma ConnectionStep.set {handler : Handler} {new : Option Handler} {server : Server} {news : News.State}
    (hold : t.connections connection = some handler)
    (hs : HandlerStep P path maxViewers t connection input b handler new) :
    ConnectionStep P path maxViewers t ({ t with server, news }.setConnection connection new) input b :=
  .moved hold hs rfl rfl

lemma dropHandler_moved {left : Option Handler} {handler : Handler}
    (hold : t.connections connection = some handler)
    (hs : ∀ b : TrackerAction, b.Silent → HandlerStep P path maxViewers t connection input b handler left)
    (h : t.dropHandler (serverMachine P path maxViewers).step connection left handler = some (t', b)) :
    ConnectionStep P path maxViewers t t' input b := by
  cases handler with
  | starting => simp [Tracker.dropHandler] at h
  | reading id =>
    obtain ⟨_, _, heq⟩ := Option.map_eq_some_iff.mp h
    cases heq
    exact .set hold (hs _ (by simp [TrackerAction.Silent]))
  | news reader =>
    obtain ⟨_, _, heq⟩ := Option.map_eq_some_iff.mp h
    cases heq
    exact .set hold (hs _ (by simp [TrackerAction.Silent]))
  | waiting | updating | checking | other | answering =>
    cases h
    exact .set hold (hs _ (by simp [TrackerAction.Silent]))

lemma route_moved {request : Request} (hold : t.connections connection = some .waiting)
    (h : t.route connection request = some (t', b)) :
    ConnectionStep P path maxViewers t t' (.request connection request) b := by
  cases request with
  | news =>
    obtain ⟨rfl, rfl⟩ := Prod.mk.inj (Option.some.inj h)
    exact .set hold (.requested (by simp [TrackerAction.Silent]))
  | price | presence | health | other =>
    cases h
    exact .set hold (.requested (by simp [TrackerAction.Silent]))

lemma connection_step (h : (trackerMachine P path maxViewers).step t input = some (t', b)) :
    ConnectionStep P path maxViewers t t' input b := by
  cases input with
  | accept =>
    simp only [trackerMachine] at h
    split at h <;> cases h
    exact .accepted rfl rfl (by assumption) rfl
  | request connection request =>
    simp only [trackerMachine] at h
    split at h
    · exact route_moved (by assumption) h
    · simp at h
  | refuse connection busy =>
    simp only [trackerMachine] at h
    split at h <;> cases h
    exact .set (by assumption) .refused
  | update connection =>
    simp only [trackerMachine] at h
    split at h
    · next hold =>
      obtain ⟨⟨server, a⟩, hs, heq⟩ := Option.map_eq_some_iff.mp h
      cases heq
      exact .set hold (.updated hs)
    · simp at h
  | start connection =>
    simp only [trackerMachine] at h
    split at h
    · next hold =>
      obtain ⟨_, _, heq⟩ := Option.map_eq_some_iff.mp h
      cases heq
      exact .set hold .started
    · simp at h
  | read connection i =>
    simp only [trackerMachine] at h
    split at h
    · next hold =>
      split at h
      · next hi =>
        obtain ⟨⟨server, a⟩, hs, heq⟩ := Option.map_eq_some_iff.mp h
        cases heq
        exact .set hold (.read ((actor_of_step hs).trans hi.1))
      · simp at h
    · simp at h
  | readNews connection =>
    simp only [trackerMachine] at h
    split at h
    · next hold =>
      obtain ⟨_, _, heq⟩ := Option.map_eq_some_iff.mp h
      cases heq
      exact .set hold .readNews
    · simp at h
  | check connection F =>
    simp only [trackerMachine] at h
    split at h <;> cases h
    exact .set (by assumption) .checked
  | answer connection =>
    simp only [trackerMachine] at h
    split at h <;> cases h
    exact .set (by assumption) .answered
  | expire connection =>
    obtain ⟨handler, hold, hexpire⟩ := Option.bind_eq_some_iff.mp h
    split at hexpire
    · next htimed => exact dropHandler_moved hold (fun _ hb => .expired htimed hb) hexpire
    · simp at hexpire
  | close connection =>
    obtain ⟨handler, hold, hclose⟩ := Option.bind_eq_some_iff.mp h
    exact dropHandler_moved hold (fun _ hb => .closed hb) hclose
  | advance now =>
    obtain ⟨_, _, hnews⟩ := Option.bind_eq_some_iff.mp h
    obtain ⟨_, _, heq⟩ := Option.map_eq_some_iff.mp hnews
    cases heq
    exact .kept (by simp [TrackerAction.Silent]) (by simp) rfl rfl rfl
  | work i | newsWork i | shutdown =>
    simp only [trackerMachine] at h
    split at h
    · obtain ⟨_, _, heq⟩ := Option.map_eq_some_iff.mp h
      cases heq
      exact .kept (by simp [TrackerAction.Silent]) (by simp) rfl rfl rfl
    · simp at h
  | drained | drainTimeout | lock | lockTimeout =>
    simp only [trackerMachine] at h
    split at h <;> cases h
    exact .kept (by simp [TrackerAction.Silent]) (by simp) rfl rfl rfl

end Steps

end BitcoinPriceTracker
