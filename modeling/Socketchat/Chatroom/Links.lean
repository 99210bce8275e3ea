import Socketchat.Chatroom.Chatroom
import Socketchat.Server.Agreement

/-!
# The links of a chatroom

Every client is linked to the server by a session of the server's, which goes
on as long as the client is in the room and rests afterwards. It is not part of
the state: `Linked` says what holds of it, and that it exists is the invariant.
-/

namespace Socketchat

open Foundation Buffer Chat Console Server

/-- `t` is what the server's connection to client `k` has been through. `since`
are the texts handed out since the client was accepted, `ws` is the connection
at the client's end. -/
structure Linked (r : ServerRun) (k : ℕ) (since : List CString) (ws : Session)
    (up down : List UInt8) (t : Session) : Prop where
  session : (session (some k)).Reachable t
  new : r.count ≤ k → t = ⟨.construct (some k), []⟩
  chat : ∀ c ∈ r.server.mClients, c.number = k → c.mClient = some t.chat
  downward : accepted t.trace = received ws.trace ++ down
  upward : accepted ws.trace = received t.trace ++ up
  handed : texts t.trace <+: since
  member : k ∈ r.members → texts t.trace = since
  heard : messages t.trace = heardFrom k r.trace
  whole : Whole t.trace

namespace Linked

variable {r r' : ServerRun} {k : ℕ} {since : List CString} {ws : Session}
  {up down : List UInt8} {t : Session}

/-- What is sent down to the client. -/
theorem link_down (h : Linked r k since ws up down t)
    (hws : ∃ socket, (Chat.session socket).Reachable ws) : Link t ws down :=
  ⟨⟨_, h.session⟩, hws, h.downward⟩

/-- What is sent up to the server. -/
theorem link_up (h : Linked r k since ws up down t)
    (hws : ∃ socket, (Chat.session socket).Reachable ws) : Link ws t up :=
  ⟨hws, ⟨_, h.session⟩, h.upward⟩

/-- The client's end goes on. -/
theorem client (h : Linked r k since ws up down t) {ws' : Session}
    {es : List Event} (htrace : ws'.trace = ws.trace ++ es)
    (hpre : received es <+: down) :
    Linked r k since ws' (up ++ accepted es)
      (down.drop (received es).length) t := by
  obtain ⟨rest, rfl⟩ := hpre
  refine { h with downward := ?_, upward := ?_ }
  · rw [h.downward, htrace, received_append, List.drop_left, List.append_assoc]
  · rw [htrace, accepted_append, h.upward, List.append_assoc]

/-- Who is in the room after a step. -/
theorem mem_members_next {input : Input} (h : r.next input = some r')
    (hk : k ∈ r'.members) :
    k ∈ r.members ∨ r.action input = some .join ∧ k = r.count := by
  have hroom : r'.members = _ := congrArg Room.members (next_room h)
  rw [hroom] at hk
  cases haction : r.action input with
  | none =>
      rw [haction] at hk
      exact Or.inl hk
  | some action =>
      rw [haction] at hk
      rcases Room.mem_perform hk with hk | ⟨rfl, hcount⟩
      · exact Or.inl hk
      · exact Or.inr ⟨rfl, hcount⟩

theorem count_next {input : Input} (h : r.next input = some r') :
    r.count ≤ r'.count := by
  have hroom : r'.count = _ := congrArg Room.count (next_room h)
  rw [hroom]
  cases r.action input with
  | none => exact Nat.le_refl r.count
  | some action =>
      cases action with
      | join => exact Nat.le_succ r.count
      | _ => exact Nat.le_refl r.count

/-- What the session of client `k` goes through in a step of `run`. -/
def after (r : ServerRun) (input : Input) (k : ℕ) (t : Session) : Session :=
  t.serve (r.polls input k)
    (if k ∈ r.members then (r.spoken input).map (·.2) else none)

/-- Who is not in the room is not served. -/
theorem after_of_notMem {input : Input} (hk : k ∉ r.members) :
    after r input k t = t := by
  have hpolls : r.polls input k = none := by
    cases hpolls : r.polls input k with
    | none => rfl
    | some io =>
        obtain ⟨i, c, -, -, hc, rfl⟩ := ServerRun.polls_some hpolls
        exact absurd (mem_members (List.mem_of_getElem? hc)) hk
  rw [after, if_neg hk, hpolls]
  rfl

/-- **The server's end goes on.** `run` takes a step, in which the connection
takes what it receives from the bytes in flight. -/
theorem next (h : Linked r k since ws up down t) (hr : server.Reachable r)
    {input : Input} (hnext : r.next input = some r')
    (hpre : received (t.observed (r.polls input k)) <+: up)
    (hspare : k ∈ r.members → t.chat.Uncongested)
    (hplain : ∀ p ∈ r.spoken input, Plain p.2) {since' : List CString}
    (hsince : k < r.count →
      since' = since ++ ((r.spoken input).map (·.2)).toList)
    (hjoin : k = r.count → r.action input = some .join → since' = []) :
    Linked r' k since' ws
      (up.drop (received (t.observed (r.polls input k))).length)
      (down ++ accepted (t.observed (r.polls input k)))
      (after r input k t) := by
  have hproper := (server_proper hr).1
  have hlt : k ∈ r.members → k < r.count := hproper.joined k
  have htexts : texts (after r input k t).trace = texts t.trace ++
      (if k ∈ r.members then (r.spoken input).map (·.2) else none).toList :=
    serve_texts _ _ h.session
  have hnew : r.count ≤ k → after r input k t = ⟨.construct (some k), []⟩ := by
    intro hle
    rw [after_of_notMem fun hin => by have := hlt hin; omega]
    exact h.new hle
  have hcount := count_next hnext
  constructor
  · exact serve_reachable _ _ h.session
  · exact fun hle => hnew (hcount.trans hle)
  · intro c' hc' hnumber
    rcases ServerRun.next_client hnext hproper.nodup hc' with
      ⟨-, hjoined, hclient⟩ | ⟨c, hc, hsame, hserve⟩
    · have hk : k = r.count := hnumber.symm.trans hjoined
      rw [hnew (Nat.le_of_eq hk.symm), hclient, hk]
    · have hk : c.number = k := hsame.symm.trans hnumber
      have hmem : k ∈ r.members := hk ▸ mem_members hc
      rw [hserve t (h.chat c hc hk), after, if_pos hmem, hk]
  · rw [after, serve_accepted, h.downward, List.append_assoc]
  · obtain ⟨rest, rfl⟩ := hpre
    rw [after, serve_received, h.upward, List.drop_left, List.append_assoc]
  · by_cases hk : k < r.count
    · rw [htexts, hsince hk]
      split
      · rename_i hmem
        rw [h.member hmem]
      · rw [Option.toList_none, List.append_nil]
        exact h.handed.trans (List.prefix_append ..)
    · rw [hnew (Nat.le_of_not_lt hk)]
      exact List.nil_prefix
  · intro hmem'
    rcases mem_members_next hnext hmem' with hmem | ⟨hjoined, hk⟩
    · rw [htexts, if_pos hmem, hsince (hlt hmem), h.member hmem]
    · rw [hnew (Nat.le_of_eq hk.symm), hjoin hk hjoined]
      rfl
  · rw [after, serve_messages, h.heard]
    exact (ServerRun.heardFrom_next hnext h.chat).symm
  · by_cases hmem : k ∈ r.members
    · refine serve_whole _ _ h.session h.whole (hspare hmem) fun u hu => ?_
      rw [if_pos hmem] at hu
      obtain ⟨p, hp, rfl⟩ := Option.map_eq_some_iff.mp hu
      have htext := hplain p hp
      exact ⟨htext.free, htext.length_le⟩
    · rw [after_of_notMem hmem]
      exact h.whole

end Linked

end Socketchat
