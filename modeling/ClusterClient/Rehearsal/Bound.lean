import ClusterClient.Rehearsal.Script

/-!
# How long a scene is played

A scene is played for `Script.bound` steps at most. The number is meant to be more than any scene
needs, and grows with the fourth power of what the script brings in (`Script.weight`): every fiber
may try a call on every node, calls may run side by side, and a step of one may cost a round in
which every cue has a turn. Nothing relies on its being enough. Cues that are not over by then are
written down as stuck.
-/

namespace ClusterClient.Rehearsal

/-- All counts of a list together. -/
def total (counts : List Nat) : Nat :=
  counts.foldl (· + ·) 0

/-- How much a list of replies brings in: each counts, and so does every row. -/
def weigh (replies : List Reply) : Nat :=
  total <| replies.map fun r =>
    match r.effect with
    | .comesBack (.ok ⟨.result (.rows rows), _⟩) => 1 + rows.rows.length
    | _ => 1

/-- How much a load balancer brings in. -/
def BalancerScript.weight : BalancerScript → Nat
  | .roundRobin => 1
  | .fixed _ fallback => 1 + fallback.length

/-- How much a retry policy brings in. -/
def RetryScript.weight : RetryScript → Nat
  | .standard | .never => 1
  | .decisions list => 1 + list.length

/-- How much a profile brings in. -/
def ProfileScript.weight (p : ProfileScript) : Nat :=
  1 + (p.balancer.map (·.weight)).getD 0 + (p.retry.map (·.weight)).getD 0

/-- How much the settings of a statement bring in. -/
def ConfigScript.weight (c : ConfigScript) : Nat :=
  1 + ((c.balancer.bind id).map (·.weight)).getD 0 + ((c.retry.bind id).map (·.weight)).getD 0

/-- How much a pool brings in. -/
def PoolScript.weight (p : PoolScript) : Nat :=
  1 + weigh p.replies

/-- How much a cue brings in. -/
def Cue.weight : Cue → Nat
  | .query _ _ _ c | .prepare _ _ c | .execute _ _ _ c => c.weight
  | .push _ replies | .reconnect _ replies => 1 + weigh replies
  | .mapProfile _ p => p.weight
  | _ => 1

/-- The cues of a scene. -/
def Scene.cues : Scene → List Cue
  | .single cue => [cue]
  | .together cues => cues.map (·.2)

/-- How much a script brings in: nodes, replies, rows, candidates, decisions and cues. -/
def Script.weight (s : Script) : Nat :=
  total (s.nodes.map (·.pool.weight)) + total (s.profiles.map (·.2.weight)) +
    weigh s.control.replies + total (s.laterPools.map (·.2.weight)) +
    total (s.scenes.map fun scene => total (scene.cues.map Cue.weight))

/-- How many steps a scene is played for. -/
def Script.bound (s : Script) : Nat :=
  64 * Nat.pow (s.weight + 8) 4

end ClusterClient.Rehearsal
