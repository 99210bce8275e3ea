import Socketchat.Server.TestServer
import Mathlib.Data.List.DropRight

/-!
# The room

What the server is for, without sockets: a room has members in the order they
joined, somebody joins or leaves, a text is announced to all members, or the
last of the messages heard from one member is relayed to all of them. In a
room two members have been handed the same texts since the later one joined,
and as long as no more than one message is heard at a time, what is relayed is
what was heard.
-/

namespace Socketchat.Server

open Foundation Chat

/-- A room: who is in it, how many have ever joined, and what has happened. -/
structure Room where
  members : List ℕ
  count : ℕ
  trace : List ServerEvent

inductive RoomAction where
  | join
  /-- The member at this position leaves. -/
  | leave (i : ℕ)
  | announce (text : CString)
  | relay (source : ℕ) (heard : List CString)

namespace Room

variable (r : Room)

def handOut (source : Option ℕ) (text : CString) : List ServerEvent :=
  r.members.map fun m => .handed source m text

/-- What happens in an action. -/
def events : RoomAction → List ServerEvent
  | .join => [.accepted r.count]
  | .leave i => (r.members[i]?.map .lost).toList
  | .announce text => r.handOut none text
  | .relay source heard =>
      heard.map (.received source) ++
        match heard.getLast? with
        | none => []
        | some text => r.handOut (some source) text

def perform (action : RoomAction) : Room :=
  match action with
  | .join =>
      ⟨r.members ++ [r.count], r.count + 1, r.trace ++ r.events action⟩
  | .leave i =>
      ⟨r.members.eraseIdx i, r.count, r.trace ++ r.events action⟩
  | .announce _ => ⟨r.members, r.count, r.trace ++ r.events action⟩
  | .relay _ _ => ⟨r.members, r.count, r.trace ++ r.events action⟩

@[simp] theorem trace_perform (action : RoomAction) :
    (r.perform action).trace = r.trace ++ r.events action := by
  cases action <;> rfl

end Room

/-- A room, from the time it is empty; `none` is a step in which nothing
happens. -/
def room : System Room (Option RoomAction) where
  init r := r = ⟨[], 0, []⟩
  step r action r' := r' = action.elim r r.perform

/-! ## What a trace shows -/

/-- The events since the last of these members joined. -/
def since (joined : List ℕ) (trace : List ServerEvent) : List ServerEvent :=
  trace.rtakeWhile fun e => decide (∀ m ∈ joined, e ≠ .accepted m)

def ServerEvent.textFor (m : ℕ) : ServerEvent → List CString
  | .handed _ client text => if client = m then [text] else []
  | _ => []

def ServerEvent.textFrom (source m : ℕ) : ServerEvent → List CString
  | .handed s client text =>
      if s = some source ∧ client = m then [text] else []
  | _ => []

def ServerEvent.messageFrom (source : ℕ) : ServerEvent → List CString
  | .received client message => if client = source then [message] else []
  | _ => []

/-- The texts handed to `m`'s `sendText`. -/
def handedTo (m : ℕ) (trace : List ServerEvent) : List CString :=
  trace.flatMap (ServerEvent.textFor m)

/-- Those of them that pass on what `source` said. -/
def handedFrom (source m : ℕ) (trace : List ServerEvent) : List CString :=
  trace.flatMap (ServerEvent.textFrom source m)

/-- The messages passed to `source`'s `receiveMessage`. -/
def heardFrom (source : ℕ) (trace : List ServerEvent) : List CString :=
  trace.flatMap (ServerEvent.messageFrom source)

section Traces

variable {joined : List ℕ} (tr es : List ServerEvent)

@[simp] theorem handedTo_append (m : ℕ) :
    handedTo m (tr ++ es) = handedTo m tr ++ handedTo m es :=
  List.flatMap_append

@[simp] theorem handedFrom_append (source m : ℕ) :
    handedFrom source m (tr ++ es) =
      handedFrom source m tr ++ handedFrom source m es :=
  List.flatMap_append

@[simp] theorem heardFrom_append (source : ℕ) :
    heardFrom source (tr ++ es) = heardFrom source tr ++ heardFrom source es :=
  List.flatMap_append

variable {es}

/-- While none of them joins, all events count. -/
theorem since_append (h : ∀ m ∈ joined, .accepted m ∉ es) :
    since joined (tr ++ es) = since joined tr ++ es := by
  induction es using List.reverseRecOn with
  | nil => rw [List.append_nil, List.append_nil]
  | append_singleton es e ih =>
      have hes : ∀ m ∈ joined, ServerEvent.accepted m ∉ es := fun m hm hin =>
        h m hm (List.mem_append_left _ hin)
      have hlast : ∀ m ∈ joined, e ≠ .accepted m := fun m hm heq =>
        h m hm (by rw [heq]; exact List.mem_append_right _ List.mem_cons_self)
      rw [← List.append_assoc, ← List.append_assoc, ← ih hes]
      exact List.rtakeWhile_concat_pos _ _ _ (decide_eq_true hlast)

/-- When one of them has just joined, nothing counts yet. -/
theorem since_joined {m : ℕ} (h : m ∈ joined) :
    since joined (tr ++ [.accepted m]) = [] :=
  List.rtakeWhile_concat_neg _ _ _ (by
    rw [decide_eq_true_eq]
    exact fun hnone => hnone m h rfl)

end Traces

/-! ## What an action shows -/

/-- The texts every member is handed in an action. -/
def RoomAction.texts : RoomAction → List CString
  | .announce text => [text]
  | .relay _ heard => heard.getLast?.toList
  | _ => []

/-- No more than one message is heard in this action. -/
def RoomAction.Single : RoomAction → Prop
  | .relay _ heard => heard.length ≤ 1
  | _ => True

/-- Of distinct elements only one is `m`. -/
theorem flatMap_ite_eq {β : Type*} {ms : List ℕ} (hnodup : ms.Nodup) {m : ℕ}
    (hm : m ∈ ms) (ys : List β) :
    (ms.flatMap fun k => if k = m then ys else []) = ys := by
  induction ms with
  | nil => exact absurd hm List.not_mem_nil
  | cons k ms ih =>
      obtain ⟨hk, hnodup⟩ := List.nodup_cons.mp hnodup
      rw [List.flatMap_cons]
      by_cases heq : k = m
      · have hnone : (ms.flatMap fun k => if k = m then ys else []) = [] := by
          rw [List.flatMap_eq_nil_iff]
          intro j hj
          rw [if_neg]
          rintro rfl
          exact hk (heq ▸ hj)
        rw [if_pos heq, hnone, List.append_nil]
      · have hin : m ∈ ms := by
          rcases List.mem_cons.mp hm with rfl | hin
          · exact absurd rfl heq
          · exact hin
        rw [if_neg heq, ih hnodup hin, List.nil_append]

namespace Room

variable {r : Room}

theorem handedTo_handOut (hnodup : r.members.Nodup) {m : ℕ}
    (hm : m ∈ r.members) (source : Option ℕ) (text : CString) :
    handedTo m (r.handOut source text) = [text] := by
  rw [handedTo, handOut, List.flatMap_map]
  exact flatMap_ite_eq hnodup hm [text]

theorem handedFrom_handOut (hnodup : r.members.Nodup) {m : ℕ}
    (hm : m ∈ r.members) (source : Option ℕ) (c : ℕ) (text : CString) :
    handedFrom c m (r.handOut source text) =
      if source = some c then [text] else [] := by
  rw [handedFrom, handOut, List.flatMap_map]
  by_cases hsource : source = some c
  · rw [if_pos hsource]
    subst hsource
    simpa [ServerEvent.textFrom] using flatMap_ite_eq hnodup hm [text]
  · rw [if_neg hsource, List.flatMap_eq_nil_iff]
    intro k _
    exact if_neg fun h => hsource h.1

theorem handedTo_events (hnodup : r.members.Nodup) {m : ℕ}
    (hm : m ∈ r.members) (action : RoomAction) :
    handedTo m (r.events action) = action.texts := by
  cases action with
  | join => rfl
  | leave i =>
      show handedTo m (r.members[i]?.map ServerEvent.lost).toList = []
      cases r.members[i]? <;> rfl
  | announce text => exact handedTo_handOut hnodup hm none text
  | relay source heard =>
      have hheard : handedTo m (heard.map (.received source)) = [] := by
        rw [handedTo, List.flatMap_map, List.flatMap_eq_nil_iff]
        exact fun _ _ => rfl
      rw [events, handedTo_append, hheard, List.nil_append,
        RoomAction.texts]
      cases heard.getLast? with
      | none => rfl
      | some text => exact handedTo_handOut hnodup hm _ text

/-- Only who joins is accepted. -/
theorem accepted_mem_events {m : ℕ} {action : RoomAction}
    (h : .accepted m ∈ r.events action) : action = .join ∧ m = r.count := by
  cases action with
  | join =>
      rw [events, List.mem_singleton, ServerEvent.accepted.injEq] at h
      exact ⟨rfl, h⟩
  | leave i =>
      simp [events] at h
  | announce text =>
      simp [events, handOut] at h
  | relay source heard =>
      exfalso
      rw [events, List.mem_append] at h
      rcases h with h | h
      · simp at h
      · cases hlast : heard.getLast? with
        | none => simp [hlast] at h
        | some text => simp [hlast, handOut] at h

/-! ## Who is in the room -/

/-- Members are distinct and have joined; who has joined and is no member has
been lost once. -/
structure Proper (r : Room) : Prop where
  nodup : r.members.Nodup
  joined : ∀ m ∈ r.members, m < r.count
  lost : ∀ m, r.trace.count (.lost m) =
    if m < r.count ∧ m ∉ r.members then 1 else 0

/-- An action that loses nobody and after which the same members are there. -/
theorem Proper.quiet (h : r.Proper) {es : List ServerEvent}
    (hes : ∀ m, .lost m ∉ es) :
    Proper { r with trace := r.trace ++ es } where
  nodup := h.nodup
  joined := h.joined
  lost := by
    intro m
    rw [List.count_append, List.count_eq_zero.mpr (hes m)]
    exact h.lost m

theorem Proper.join (h : r.Proper) : (r.perform .join).Proper where
  nodup := by
    refine List.Nodup.append h.nodup (List.nodup_singleton _) ?_
    rw [List.disjoint_singleton]
    exact fun hin => absurd (h.joined _ hin) (Nat.lt_irrefl _)
  joined := by
    intro m hm
    rcases List.mem_append.mp hm with hm | hm
    · exact Nat.lt_succ_of_lt (h.joined m hm)
    · rw [List.mem_singleton.mp hm]
      exact Nat.lt_succ_self _
  lost := by
    intro m
    have hnone : List.count (.lost m) (r.events .join) = 0 :=
      List.count_eq_zero.mpr (by simp [events])
    show (r.trace ++ r.events .join).count (.lost m) =
      if m < r.count + 1 ∧ m ∉ r.members ++ [r.count] then 1 else 0
    rw [List.count_append, hnone, Nat.add_zero, h.lost m]
    refine if_congr ?_ rfl rfl
    rw [List.mem_append, List.mem_singleton]
    constructor
    · rintro ⟨hlt, hout⟩
      exact ⟨Nat.lt_succ_of_lt hlt, fun hin =>
        hin.elim hout fun heq => absurd heq (Nat.ne_of_lt hlt)⟩
    · rintro ⟨hlt, hout⟩
      exact ⟨Nat.lt_of_le_of_ne (Nat.le_of_lt_succ hlt) fun heq =>
        hout (Or.inr heq), fun hin => hout (Or.inl hin)⟩

theorem Proper.leave (h : r.Proper) (i : ℕ) : (r.perform (.leave i)).Proper := by
  by_cases hi : i < r.members.length
  · have herase : r.members.eraseIdx i = r.members.erase r.members[i] :=
      (h.nodup.erase_getElem i hi).symm
    have hperform : r.perform (.leave i) =
        ⟨r.members.erase r.members[i], r.count,
          r.trace ++ [ServerEvent.lost r.members[i]]⟩ := by
      simp [perform, events, herase, hi]
    rw [hperform]
    refine ⟨h.nodup.erase _, fun m hm => h.joined m (List.mem_of_mem_erase hm),
      fun m => ?_⟩
    show (r.trace ++ [ServerEvent.lost r.members[i]]).count (.lost m) =
      if m < r.count ∧ m ∉ r.members.erase r.members[i] then 1 else 0
    rw [List.count_append, h.lost m]
    by_cases hm : m = r.members[i]
    · have hin : m ∈ r.members := hm ▸ List.getElem_mem hi
      have hlt := h.joined m hin
      rw [← hm]
      simp [hin, hlt, h.nodup.mem_erase_iff]
    · have hne : ServerEvent.lost r.members[i] ≠ .lost m := fun heq =>
        hm (ServerEvent.lost.inj heq).symm
      simp [hm, hne, h.nodup.mem_erase_iff]
  · have hperform : r.perform (.leave i) = r := by
      have hlen : r.members.length ≤ i := Nat.le_of_not_lt hi
      simp [perform, events, hlen, List.eraseIdx_of_length_le]
    rw [hperform]
    exact h

theorem Proper.perform (h : r.Proper) (action : RoomAction) :
    (r.perform action).Proper := by
  cases action with
  | join => exact h.join
  | leave i => exact h.leave i
  | announce text =>
      exact h.quiet fun m hin => by simp [events, handOut] at hin
  | relay source heard =>
      refine h.quiet fun m hin => ?_
      rw [events, List.mem_append] at hin
      rcases hin with hin | hin
      · simp at hin
      · cases hlast : heard.getLast? with
        | none => simp [hlast] at hin
        | some text => simp [hlast, handOut] at hin

/-! ## Agreement -/

/-- Two members have been handed the same texts since the later one joined. -/
def Agreed (r : Room) : Prop :=
  ∀ c ∈ r.members, ∀ d ∈ r.members,
    handedTo c (since [c, d] r.trace) = handedTo d (since [c, d] r.trace)

/-- Who is in the room after an action was there before or has just joined. -/
theorem mem_perform {m : ℕ} {action : RoomAction}
    (h : m ∈ (r.perform action).members) :
    m ∈ r.members ∨ action = .join ∧ m = r.count := by
  cases action with
  | join =>
      rcases List.mem_append.mp h with h | h
      · exact Or.inl h
      · exact Or.inr ⟨rfl, List.mem_singleton.mp h⟩
  | leave i => exact Or.inl (List.mem_of_mem_eraseIdx h)
  | announce text => exact Or.inl h
  | relay source heard => exact Or.inl h

/-- For those who were there before, all that happens counts. -/
theorem since_perform (h : r.Proper) {joined : List ℕ}
    (hjoined : ∀ m ∈ joined, m ∈ r.members) (action : RoomAction) :
    since joined (r.perform action).trace =
      since joined r.trace ++ r.events action := by
  rw [trace_perform]
  refine since_append _ fun m hm hin => ?_
  have hlt := h.joined m (hjoined m hm)
  rw [(accepted_mem_events hin).2] at hlt
  exact absurd hlt (Nat.lt_irrefl _)

/-- **Agreement is kept by every action.** -/
theorem Agreed.perform (h : r.Agreed) (hproper : r.Proper)
    (action : RoomAction) : (r.perform action).Agreed := by
  intro c hc d hd
  -- if one of the two has just joined, nothing has been handed out since
  have hnew : ∀ m ∈ [c, d], action = .join → m = r.count →
      since [c, d] (r.perform action).trace = [] := by
    rintro m hm rfl rfl
    exact since_joined _ hm
  rcases mem_perform hc with hc | ⟨hjoin, hcount⟩
  · rcases mem_perform hd with hd | ⟨hjoin, hcount⟩
    · have hboth : ∀ m ∈ [c, d], m ∈ r.members := by
        intro m hm
        rcases List.mem_pair.mp hm with rfl | rfl
        · exact hc
        · exact hd
      rw [since_perform hproper hboth, handedTo_append, handedTo_append,
        h c hc d hd, handedTo_events hproper.nodup hc,
        handedTo_events hproper.nodup hd]
    · rw [hnew d (by simp) hjoin hcount]
      rfl
  · rw [hnew c (by simp) hjoin hcount]
    rfl

/-- **Members are distinct and agree, whatever happens.** -/
theorem invariant : room.Invariant fun r => r.Proper ∧ r.Agreed where
  init := by
    rintro r rfl
    refine ⟨⟨List.nodup_nil, by simp, fun m => ?_⟩, by simp [Agreed]⟩
    simp
  step := by
    rintro r action r' - ⟨hproper, hagreed⟩ rfl
    cases action with
    | none => exact ⟨hproper, hagreed⟩
    | some action => exact ⟨hproper.perform action, hagreed.perform hproper action⟩

/-! ## What is relayed -/

/-- What a member has been handed since it joined, to pass on what somebody
said, is what that one said in the time. -/
def Relayed (r : Room) : Prop :=
  ∀ d ∈ r.members, ∀ c,
    handedFrom c d (since [d] r.trace) = heardFrom c (since [d] r.trace)

theorem heardFrom_relay (source : ℕ) (heard : List CString) (c : ℕ) :
    heardFrom c (r.events (.relay source heard)) =
      if source = c then heard else [] := by
  have hquiet : ∀ text, heardFrom c (r.handOut (some source) text) = [] := by
    intro text
    rw [heardFrom, handOut, List.flatMap_map, List.flatMap_eq_nil_iff]
    exact fun _ _ => rfl
  have hlast : heardFrom c (match heard.getLast? with
      | none => []
      | some text => r.handOut (some source) text) = [] := by
    cases heard.getLast? with
    | none => rfl
    | some text => exact hquiet text
  rw [events, heardFrom_append, hlast, List.append_nil, heardFrom,
    List.flatMap_map]
  by_cases hsource : source = c
  · rw [if_pos hsource]
    simp [ServerEvent.messageFrom, hsource]
  · rw [if_neg hsource, List.flatMap_eq_nil_iff]
    exact fun _ _ => if_neg hsource

theorem handedFrom_relay (hnodup : r.members.Nodup) {d : ℕ}
    (hd : d ∈ r.members) (source : ℕ) (heard : List CString) (c : ℕ) :
    handedFrom c d (r.events (.relay source heard)) =
      if source = c then heard.getLast?.toList else [] := by
  have hheard : handedFrom c d (heard.map (.received source)) = [] := by
    rw [handedFrom, List.flatMap_map, List.flatMap_eq_nil_iff]
    exact fun _ _ => rfl
  rw [events, handedFrom_append, hheard, List.nil_append]
  cases heard.getLast? with
  | none =>
      show [] = if source = c then [] else []
      rw [ite_self]
  | some text =>
      have hhanded := handedFrom_handOut hnodup hd (some source) c text
      simpa using hhanded

/-- The last message is all messages if there is no more than one. -/
theorem getLast?_toList_eq_iff (heard : List CString) :
    heard.getLast?.toList = heard ↔ heard.length ≤ 1 := by
  constructor
  · intro h
    rw [← h]
    cases heard.getLast? with
    | none => exact Nat.zero_le 1
    | some text => exact Nat.le_refl 1
  · intro h
    match heard, h with
    | [], _ => rfl
    | [text], _ => rfl

/-- **What is heard is relayed** in an action exactly when it is no more than
one message. -/
theorem Relayed.perform_iff (h : r.Relayed) (hproper : r.Proper)
    {action : RoomAction}
    (hsource : ∀ source heard, action = .relay source heard →
      source ∈ r.members) :
    (r.perform action).Relayed ↔ action.Single := by
  -- for those who were there before, only this action is to be compared
  have hold : ∀ d ∈ r.members, ∀ c,
      (handedFrom c d (since [d] (r.perform action).trace) =
        heardFrom c (since [d] (r.perform action).trace) ↔
      handedFrom c d (r.events action) = heardFrom c (r.events action)) := by
    intro d hd c
    have hthere : ∀ m ∈ [d], m ∈ r.members := by
      intro m hm
      rw [List.mem_singleton.mp hm]
      exact hd
    rw [since_perform hproper hthere, handedFrom_append, heardFrom_append,
      h d hd c, List.append_cancel_left_eq]
  cases action with
  | relay source heard =>
      have hmem := hsource source heard rfl
      constructor
      · intro hall
        have hself := (hold source hmem source).mp (hall source hmem source)
        rw [handedFrom_relay hproper.nodup hmem, heardFrom_relay,
          if_pos rfl, if_pos rfl] at hself
        exact (getLast?_toList_eq_iff heard).mp hself
      · intro hone d hd c
        rw [hold d hd, handedFrom_relay hproper.nodup hd, heardFrom_relay,
          (getLast?_toList_eq_iff heard).mpr hone]
  | join =>
      refine iff_of_true (fun d hd c => ?_) trivial
      rcases List.mem_append.mp hd with hd | hd
      · rw [hold d hd]
        rfl
      · rw [List.mem_singleton.mp hd]
        have hnothing : since [r.count] (r.perform .join).trace = [] :=
          since_joined _ List.mem_cons_self
        rw [hnothing]
        rfl
  | leave i =>
      refine iff_of_true (fun d hd c => ?_) trivial
      rw [hold d (List.mem_of_mem_eraseIdx hd)]
      show handedFrom c d (r.members[i]?.map ServerEvent.lost).toList =
        heardFrom c (r.members[i]?.map ServerEvent.lost).toList
      cases r.members[i]? <;> rfl
  | announce text =>
      refine iff_of_true (fun d hd c => ?_) trivial
      have hnone := handedFrom_handOut hproper.nodup hd none c text
      rw [if_neg (by simp)] at hnone
      rw [hold d hd]
      show handedFrom c d (r.handOut none text) =
        heardFrom c (r.handOut none text)
      rw [hnone, heardFrom, handOut, List.flatMap_map, eq_comm,
        List.flatMap_eq_nil_iff]
      exact fun _ _ => rfl

end Room

end Socketchat.Server
