import Dialogue.Stage

/-!
# Calls

All that can be done to a stage from outside, as data: a call, and the reply it gets. A run is a
list of calls, made one after the other.
-/

namespace Dialogue

/-- Something to do with a stage. -/
inductive Call where
  | register (graph : Graph)
  | unregister (graph : GraphId)
  | listen (listener : Listener)
  | unlisten (key : String)
  | start (graph : GraphId) (actor : Option Actor)
  | serve (server : Server)
  | select (port : PortIndex)
  | stop
  | set (name : String) (value : PropertyValue)
  | perform (script : Script (List Outcome))

/-- What a call is answered with. -/
inductive Reply where
  | registered (result : Except GraphError GraphId)
  | unregistered (graph : Option Graph)
  | listening (changed : Bool)
  | session (result : Except SessionError SessionState)
  | stopped
  | written (result : Except PropertyError Unit)
  | performed (report : List Outcome)

namespace Stage

/-- Makes a call. -/
def call (st : Stage) : Call → Reply × Stage
  | .register g => let (r, st) := st.register g; (.registered r, st)
  | .unregister id => let (g, st) := st.unregister id; (.unregistered g, st)
  | .listen l => let (b, st) := st.listen l; (.listening b, st)
  | .unlisten key => let (b, st) := st.unlisten key; (.listening b, st)
  | .start id actor => let (r, st) := st.start id actor; (.session r, st)
  | .serve server => let (r, st) := st.serve server; (.session r, st)
  | .select port => let (r, st) := st.select port; (.session r, st)
  | .stop => (.stopped, st.stop)
  | .set name v => let (r, st) := st.set name v; (.written r, st)
  | .perform p => let (r, st) := st.perform p; (.performed r, st)

/-- Makes calls in order, and collects the replies. -/
def run (st : Stage) : List Call → List Reply × Stage
  | [] => ([], st)
  | c :: cs =>
    let (r, st) := st.call c
    let (rs, st) := st.run cs
    (r :: rs, st)

end Stage

end Dialogue
