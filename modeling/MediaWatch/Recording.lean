import MediaWatch.Engine.Notice
import MediaWatch.Watcher

/-! # Recordings

A recording is one listener that keeps what it is told while the environment changes.
-/

namespace MediaWatch

/-- A listener of an observable, and the watcher in which it listens. -/
structure Recording where
  watcher : Watcher
  subject : Observable
  listener : ListenerId

namespace Recording

def start (w : Watcher) (subject : Observable) : Recording :=
  let w := w.own [subject]
  let (listener, e) := w.engine.subscribe subject .client
  ⟨{ w with engine := e }, subject, listener⟩

def view (r : Recording) : View := r.watcher.view

def features (r : Recording) : Media.Features := r.watcher.engine.features

/-- Sets the environment. What the listener was told of it comes with the recording. -/
def update (r : Recording) (features : Media.Features) : List Reading × Recording :=
  let (notices, e) := (r.watcher.update features).engine.notices
  ((notices.filter (·.listener == r.listener)).filterMap Notice.reading?,
    { r with watcher := { r.watcher with engine := e } })

/-- Stops to listen. Whether the listener was still registered comes with the watcher. -/
def stop (r : Recording) : Bool × Watcher :=
  let (removed, e) := r.watcher.engine.unsubscribe r.subject r.listener
  (removed, { r.watcher with engine := e })

end Recording

end MediaWatch
