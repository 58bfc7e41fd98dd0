import HccastWired.Video.Stream

/-!
# The packet limit

`stream_h264_file` sends a file again and again until the limit is reached. Each pass is
given what is left of the limit, and compares with it after a packet was sent.
-/

namespace HccastWired.Video

open Foundation Protocol Session FrameStreamParser

def StreamStats.add (total stats : StreamStats) : StreamStats :=
  ⟨total.packets + stats.packets, total.payloadBytes + stats.payloadBytes,
    total.wireBytes + stats.wireBytes, total.elapsedS + stats.elapsedS⟩

/-- The loop of `stream_h264_file` within some fuel. What a call meets and what the clock
shows is known for each pass. -/
def streamFileLoop (met : Nat → Nat → Encounter) (clock : Nat → Rat × Rat)
    (reads : List Protocol.Bytes)
    (fps : Rat) (packetization : String) (loop : Bool) (maxPackets : Option Int) :
    Nat → Nat → StreamStats → Outlet → Option (Except StreamFault StreamStats × Outlet)
  | 0, _, _, _ => none
  | fuel + 1, pass, total, o =>
      match streamPackets (met pass) fps (maxPackets.map fun most => most - total.packets)
          (clock pass).1 (clock pass).2 o (packetsFromStream packetization reads) with
      | (.error fault, o) => some (.error fault, o)
      | (.ok stats, o) =>
          if !loop || stats.packets = 0 ||
              maxPackets.any fun most => decide (most ≤ ((total.add stats).packets : Int)) then
            some (.ok { total.add stats with
              elapsedS := max (total.add stats).elapsedS (1 / 1000000) }, o)
          else
            streamFileLoop met clock reads fps packetization loop maxPackets fuel (pass + 1)
              (total.add stats) o

def streamH264File (met : Nat → Nat → Encounter) (clock : Nat → Rat × Rat)
    (reads : List Protocol.Bytes)
    (fps : Rat) (packetization : String) (loop : Bool) (maxPackets : Option Int) (fuel : Nat)
    (o : Outlet) : Option (Except StreamFault StreamStats × Outlet) :=
  streamFileLoop met clock reads fps packetization loop maxPackets fuel 0 ⟨0, 0, 0, 0⟩ o

/-- The packets in the frames that the transport was handed. -/
def Outlet.sent (o : Outlet) : List Protocol.Bytes :=
  o.handed.map fun data => (headFrame data).payload

/-- The first packets of a file that is sent again and again. -/
def repeated (packets : List Protocol.Bytes) (count : Nat) : List Protocol.Bytes :=
  ((List.replicate count packets).flatten).take count

/-- The packets that a limit asks for. -/
def wanted (loop : Bool) (packets : List Protocol.Bytes) (count : Nat) : List Protocol.Bytes :=
  if loop then repeated packets count else packets.take count

/-- A packet that fits into a frame. -/
def Sendable (packet : Protocol.Bytes) : Prop :=
  packet ≠ [] ∧ 16 + packet.length < 2 ^ 32

section Repeated

variable {packets : List Protocol.Bytes}

theorem take_replicate_flatten (hne : packets ≠ []) {count copies : Nat} (h : count ≤ copies) :
    (List.replicate copies packets).flatten.take count = repeated packets count := by
  obtain ⟨more, rfl⟩ := Nat.exists_eq_add_of_le h
  have hpos : 0 < packets.length := List.length_pos_iff.mpr hne
  have hlength : count ≤ (List.replicate count packets).flatten.length := by
    rw [List.length_flatten, List.map_replicate, List.sum_replicate, smul_eq_mul]
    exact Nat.le_mul_of_pos_right count hpos
  rw [List.replicate_add, List.flatten_append, List.take_append_of_le_length hlength, repeated]

theorem repeated_of_le {count : Nat} (hpos : 0 < count) (h : count ≤ packets.length) :
    repeated packets count = packets.take count := by
  obtain ⟨copies, rfl⟩ := Nat.exists_eq_add_of_lt hpos
  rw [repeated, Nat.zero_add, List.replicate_succ, List.flatten_cons,
    List.take_append_of_le_length (by omega)]

theorem repeated_of_lt (hne : packets ≠ []) {count : Nat} (h : packets.length < count) :
    repeated packets count = packets ++ repeated packets (count - packets.length) := by
  obtain ⟨copies, rfl⟩ := Nat.exists_eq_add_of_lt (Nat.zero_lt_of_lt h)
  have hpos : 0 < packets.length := List.length_pos_iff.mpr hne
  rw [repeated, Nat.zero_add, List.replicate_succ, List.flatten_cons, List.take_append,
    List.take_of_length_le (by omega), take_replicate_flatten hne (by omega)]

theorem wanted_length (loop : Bool) (count : Nat) :
    (wanted loop packets count).length ≤ count := by
  rw [wanted]
  split
  · exact List.length_take_le count _
  · exact List.length_take_le count _

end Repeated

/-- A packet goes out in one frame, or the call fails before. -/
theorem Outlet.sendVideoPacket_sent (o : Outlet) (met : Encounter) (packet : Protocol.Bytes) :
    ((o.sendVideoPacket met packet).2.sent = o.sent ∧
        ∃ fault, (o.sendVideoPacket met packet).1 = .error fault) ∨
      ((o.sendVideoPacket met packet).2.sent = o.sent ++ [packet] ∧ Sendable packet) := by
  rw [sendVideoPacket]
  split
  · exact Or.inl ⟨rfl, _, rfl⟩
  · split
    · exact Or.inl ⟨rfl, _, rfl⟩
    · split
      · exact Or.inl ⟨rfl, _, rfl⟩
      · next data codec hmake =>
        right
        have hne : packet ≠ [] := by
          rintro rfl
          cases hmake
        have hpayload : (Message.vid packet).payload = .ok packet := if_neg hne
        have hfits : 16 + packet.length < 2 ^ 32 := by
          by_contra hlong
          rw [make_too_long hpayload (Nat.le_of_not_lt hlong)] at hmake
          cases hmake
        obtain ⟨bytes, hbytes, hpacked⟩ := @make_fits o.codec _ packet hpayload hfits
        rw [hpacked] at hmake
        obtain rfl := Except.ok.inj (Prod.mk.inj hmake).1
        have hread := (read_encoded Message.frame_wireForm hfits hbytes []).2.2.1
        rw [List.append_nil] at hread
        refine ⟨?_, hne, hfits⟩
        rw [sent, List.map_append, List.map_singleton, hread]
        rfl

/-- The loop sends what is left of the limit, or fails on the way. -/
theorem streamLoop_sent {met : Nat → Encounter} {most : Int} {remaining : Nat} {o : Outlet}
    {c : Counts} {packets : List Protocol.Bytes} (hmost : most = c.packets + remaining)
    (hpos : 0 < remaining) :
    ∃ taken, (streamLoop met (some most) o c packets).2.sent = o.sent ++ taken ∧
      taken <+: packets.take remaining ∧
      ∀ c' full, (streamLoop met (some most) o c packets).1 = .ok (c', full) →
        taken = packets.take remaining ∧ c'.packets = c.packets + taken.length ∧
          (full = false → packets.length < remaining) := by
  induction packets generalizing o c remaining with
  | nil =>
      refine ⟨[], ?_, List.nil_prefix, ?_⟩
      · rw [streamLoop, List.append_nil]
      · intro c' full hok
        obtain ⟨rfl, rfl⟩ := Prod.mk.inj (Except.ok.inj hok)
        exact ⟨List.take_nil.symm, rfl, fun _ => hpos⟩
  | cons packet rest ih =>
      obtain ⟨before, rfl⟩ := Nat.exists_eq_add_of_lt hpos
      rw [Nat.zero_add, List.take_succ_cons, streamLoop]
      rw [Nat.zero_add] at hmost
      have hsent := o.sendVideoPacket_sent (met c.packets) packet
      cases hcall : o.sendVideoPacket (met c.packets) packet with
      | mk outcome after =>
          rw [hcall] at hsent
          cases outcome with
          | error fault =>
              obtain ⟨hnone, -⟩ | ⟨hone, -⟩ := hsent
              · refine ⟨[], ?_, List.nil_prefix, ?_⟩
                · rw [List.append_nil]
                  exact hnone
                · exact fun _ _ hok => by cases hok
              · refine ⟨[packet], hone, ?_, ?_⟩
                · exact (List.prefix_cons_inj packet).mpr List.nil_prefix
                · exact fun _ _ hok => by cases hok
          | ok value =>
              obtain ⟨-, fault, hfault⟩ | ⟨hone, -⟩ := hsent
              · cases hfault
              · change after.sent = o.sent ++ [packet] at hone
                have hnext : (c.add packet).packets = c.packets + 1 := rfl
                simp only [Option.any_some, decide_eq_true_eq, hnext]
                by_cases hlast : before = 0
                · rw [if_pos (by omega), hlast, List.take_zero]
                  refine ⟨[packet], hone, List.prefix_rfl, ?_⟩
                  intro c' full hok
                  obtain ⟨rfl, rfl⟩ := Prod.mk.inj (Except.ok.inj hok)
                  exact ⟨rfl, hnext, fun hfull => by cases hfull⟩
                · rw [if_neg (by omega)]
                  obtain ⟨taken, htaken, hprefix, hdone⟩ := @ih before after (c.add packet)
                    (by rw [hnext]; omega) (by omega)
                  refine ⟨packet :: taken, ?_, ?_, ?_⟩
                  · rw [htaken, hone, List.append_assoc]
                    rfl
                  · exact (List.prefix_cons_inj packet).mpr hprefix
                  · intro c' full hok
                    obtain ⟨rfl, hcount, hfull⟩ := hdone c' full hok
                    refine ⟨rfl, ?_, ?_⟩
                    · rw [hcount, hnext, List.length_cons]
                      omega
                    · intro hfalse
                      rw [List.length_cons]
                      have := hfull hfalse
                      omega

/-- A pass sends what is left of the limit, or all it has, or fails. -/
theorem streamPackets_sent {met : Nat → Encounter} {fps started ended : Rat} {remaining : Nat}
    {o : Outlet} {packets : Generator Protocol.Bytes AnnexBError Unit} (hpos : 0 < remaining) :
    ∃ taken, (streamPackets met fps (some remaining) started ended o packets).2.sent =
        o.sent ++ taken ∧
      taken <+: packets.items.take remaining ∧
      ∀ stats, (streamPackets met fps (some remaining) started ended o packets).1 = .ok stats →
        taken = packets.items.take remaining ∧ stats.packets = taken.length := by
  rw [streamPackets]
  by_cases hfps : fps ≤ 0
  · rw [if_pos hfps]
    refine ⟨[], ?_, List.nil_prefix, ?_⟩
    · rw [List.append_nil]
    · exact fun _ hok => by cases hok
  · rw [if_neg hfps]
    obtain ⟨taken, htaken, hprefix, hdone⟩ := @streamLoop_sent met remaining remaining o
      ⟨0, 0, 0⟩ packets.items (by simp) hpos
    refine ⟨taken, ?_, hprefix, ?_⟩
    · rw [← htaken]
      cases hloop : streamLoop met (some (remaining : Int)) o ⟨0, 0, 0⟩ packets.items with
      | mk outcome after =>
          cases outcome with
          | error fault => rfl
          | ok value =>
              obtain ⟨c, full⟩ := value
              cases full with
              | true => rfl
              | false => cases packets.ending <;> rfl
    · intro stats hok
      cases hloop : streamLoop met (some (remaining : Int)) o ⟨0, 0, 0⟩ packets.items with
      | mk outcome after =>
          rw [hloop] at hok hdone
          cases outcome with
          | error fault => cases hok
          | ok value =>
              obtain ⟨c, full⟩ := value
              obtain ⟨heq, hcount, -⟩ := hdone c full rfl
              refine ⟨heq, ?_⟩
              rw [Nat.zero_add] at hcount
              cases full with
              | true =>
                  obtain rfl := Except.ok.inj hok
                  exact hcount
              | false =>
                  cases hending : packets.ending with
                  | error e =>
                      simp only [hending] at hok
                      cases hok
                  | ok value =>
                      simp only [hending] at hok
                      obtain rfl := Except.ok.inj hok
                      exact hcount

/-- From any pass on, a file is sent until the limit is reached. -/
theorem streamFileLoop_sent {met : Nat → Nat → Encounter} {clock : Nat → Rat × Rat}
    {reads : List Protocol.Bytes} {fps : Rat} {packetization : String} {loop : Bool} {most : Int}
    {remaining pass : Nat} {total : StreamStats} {o : Outlet}
    (hmost : most = total.packets + remaining) (hpos : 0 < remaining) :
    ∃ fuel outcome after taken,
      streamFileLoop met clock reads fps packetization loop (some most) fuel pass total o =
        some (outcome, after) ∧
      after.sent = o.sent ++ taken ∧
      taken <+: wanted loop (packetsFromStream packetization reads).items remaining ∧
      ∀ stats, outcome = .ok stats →
        taken = wanted loop (packetsFromStream packetization reads).items remaining := by
  induction hn : remaining using Nat.strong_induction_on
    generalizing remaining pass total o with
  | _ n ih =>
    subst hn
    let packets := (packetsFromStream packetization reads).items
    have hfirst : packets.take remaining <+: wanted loop packets remaining := by
      rw [wanted]
      split
      · by_cases hle : remaining ≤ packets.length
        · rw [repeated_of_le hpos hle]
        · by_cases hnil : packets = []
          · rw [hnil, List.take_nil]
            exact List.nil_prefix
          · rw [repeated_of_lt hnil (Nat.lt_of_not_le hle),
              List.take_of_length_le (Nat.le_of_not_le hle)]
            exact List.prefix_append packets _
      · exact List.prefix_rfl
    obtain ⟨taken, htaken, hprefix, hdone⟩ := @streamPackets_sent (met pass) fps (clock pass).1
      (clock pass).2 remaining o (packetsFromStream packetization reads) hpos
    have hleft : most - (total.packets : Int) = remaining := by omega
    cases hpass : streamPackets (met pass) fps (some (remaining : Int)) (clock pass).1
        (clock pass).2 o (packetsFromStream packetization reads) with
    | mk outcome after =>
        rw [hpass] at htaken hdone
        cases outcome with
        | error fault =>
            refine ⟨1, .error fault, after, taken, ?_, htaken, hprefix.trans hfirst, ?_⟩
            · rw [streamFileLoop, Option.map_some, hleft, hpass]
            · exact fun _ hok => by cases hok
        | ok stats =>
            obtain ⟨rfl, hcount⟩ := hdone stats rfl
            rw [List.length_take] at hcount
            have hnew : (total.add stats).packets = total.packets + stats.packets := rfl
            by_cases hstop : loop = true ∧ packets ≠ [] ∧ packets.length < remaining
            · -- the whole file was sent and the limit is not reached
              obtain ⟨hloop, hne, hshort⟩ := hstop
              have hall : packets.take remaining = packets :=
                List.take_of_length_le hshort.le
              have hlength : 0 < packets.length := List.length_pos_iff.mpr hne
              have hsome : stats.packets = packets.length := by
                rw [hcount]
                exact Nat.min_eq_right hshort.le
              obtain ⟨fuel, outcome, last, more, hrun, hlast, hmore, hends⟩ :=
                @ih (remaining - packets.length) (by omega) (remaining - packets.length)
                  (pass + 1) (total.add stats) after (by rw [hnew]; omega) (by omega) rfl
              have hwanted : wanted loop packets remaining =
                  packets ++ wanted loop packets (remaining - packets.length) := by
                rw [hloop, wanted, wanted, if_pos rfl, if_pos rfl, repeated_of_lt hne hshort]
              refine ⟨fuel + 1, outcome, last, packets ++ more, ?_, ?_, ?_, ?_⟩
              · rw [streamFileLoop, Option.map_some, hleft, hpass]
                simp only [Option.any_some, hloop, Bool.not_true, Bool.false_or]
                rw [if_neg, ← hrun, hloop]
                simp only [Bool.or_eq_true, decide_eq_true_eq, hnew]
                omega
              · change after.sent = o.sent ++ packets.take remaining at htaken
                rw [hlast, htaken, hall, List.append_assoc]
              · change packets ++ more <+: wanted loop packets remaining
                rw [hwanted]
                exact (List.prefix_append_right_inj packets).mpr hmore
              · intro stats' hok
                change packets ++ more = wanted loop packets remaining
                rw [hwanted, hends stats' hok]
            · have hleave : (!loop || decide (stats.packets = 0) ||
                  (some most).any fun most => decide (most ≤ ((total.add stats).packets : Int))) =
                  true := by
                simp only [Option.any_some, Bool.or_eq_true, Bool.not_eq_true', decide_eq_true_eq,
                  hnew]
                by_contra hgo
                push Not at hgo
                obtain ⟨⟨hloop, hsome⟩, hlow⟩ := hgo
                apply hstop
                refine ⟨by simpa using hloop, ?_, ?_⟩
                · intro hnil
                  apply hsome
                  change stats.packets = min remaining packets.length at hcount
                  rw [hcount, hnil, List.length_nil, Nat.min_zero]
                · change stats.packets = min remaining packets.length at hcount
                  omega
              refine ⟨1, .ok { total.add stats with
                elapsedS := max (total.add stats).elapsedS (1 / 1000000) }, after,
                packets.take remaining, ?_, htaken, hfirst, ?_⟩
              · rw [streamFileLoop, Option.map_some, hleft, hpass]
                simp only [hleave, if_true]
              · intro _ _
                change packets.take remaining = wanted loop packets remaining
                rw [wanted]
                split
                · next hloop =>
                  by_cases hle : remaining ≤ packets.length
                  · rw [repeated_of_le hpos hle]
                  · have hnil : packets = [] := by
                      by_contra hne
                      exact hstop ⟨hloop, hne, Nat.lt_of_not_le hle⟩
                    rw [hnil, repeated]
                    simp
                · rfl

/-- Nothing is sent where the first packet cannot be. -/
theorem streamPackets_nothing {met : Nat → Encounter} {fps started ended : Rat}
    {maxPackets : Option Int} {o : Outlet} {packets : Generator Protocol.Bytes AnnexBError Unit}
    (h : ∀ packet ∈ packets.items.head?, ¬ Sendable packet) :
    (streamPackets met fps maxPackets started ended o packets).2.sent = o.sent ∧
      ∀ stats, (streamPackets met fps maxPackets started ended o packets).1 = .ok stats →
        packets.items = [] ∧ stats.packets = 0 := by
  rw [streamPackets]
  by_cases hfps : fps ≤ 0
  · rw [if_pos hfps]
    exact ⟨rfl, fun _ hok => by cases hok⟩
  · rw [if_neg hfps]
    cases hitems : packets.items with
    | nil =>
        rw [streamLoop]
        cases packets.ending with
        | error e => exact ⟨rfl, fun _ hok => by cases hok⟩
        | ok value =>
            refine ⟨rfl, ?_⟩
            intro stats hok
            obtain rfl := Except.ok.inj hok
            exact ⟨rfl, rfl⟩
    | cons packet rest =>
        have hnot : ¬ Sendable packet := h packet (by rw [hitems]; rfl)
        have hsent := o.sendVideoPacket_sent (met 0) packet
        rw [streamLoop]
        cases hcall : o.sendVideoPacket (met 0) packet with
        | mk outcome after =>
            rw [hcall] at hsent
            obtain ⟨hnone, fault, rfl⟩ | ⟨-, hsendable⟩ := hsent
            · exact ⟨hnone, fun _ hok => by cases hok⟩
            · exact absurd hsendable hnot

/-- No call meets an error, and the file is one that can be sent. -/
structure Unhindered (met : Nat → Nat → Encounter) (fps : Rat)
    (packets : Generator Protocol.Bytes AnnexBError Unit) : Prop where
  clear : ∀ pass n, met pass n = .clear
  fps : 0 < fps
  sendable : ∀ packet ∈ packets.items, Sendable packet
  ending : packets.ending = .ok ()

theorem streamLoop_unhindered {met : Nat → Encounter} (hclear : ∀ n, met n = .clear)
    {maxPackets : Option Int} {o : Outlet} {c : Counts} {packets : List Protocol.Bytes}
    (hsendable : ∀ packet ∈ packets, Sendable packet) :
    ∃ c' full after, streamLoop met maxPackets o c packets = (.ok (c', full), after) := by
  induction packets generalizing o c with
  | nil => exact ⟨c, false, o, rfl⟩
  | cons packet rest ih =>
      obtain ⟨hne, hfits⟩ := hsendable packet List.mem_cons_self
      obtain ⟨data, -, hsend⟩ := @Outlet.sendVideoPacket_clear o packet hne hfits
      rw [streamLoop, hclear, hsend]
      simp only
      split
      · exact ⟨_, _, _, rfl⟩
      · exact ih fun other hother => hsendable other (List.mem_cons_of_mem packet hother)

theorem streamFileLoop_unhindered {met : Nat → Nat → Encounter} {clock : Nat → Rat × Rat}
    {reads : List Protocol.Bytes} {fps : Rat} {packetization : String} {loop : Bool}
    {maxPackets : Option Int} (u : Unhindered met fps (packetsFromStream packetization reads))
    {fuel pass : Nat} {total : StreamStats} {o : Outlet}
    {result : Except StreamFault StreamStats × Outlet}
    (h : streamFileLoop met clock reads fps packetization loop maxPackets fuel pass total o =
      some result) : ∃ stats, result.1 = .ok stats := by
  induction fuel generalizing pass total o with
  | zero => cases h
  | succ fuel ih =>
      obtain ⟨c, full, after, hloop⟩ := @streamLoop_unhindered (met pass) (u.clear pass)
        (maxPackets.map fun most => most - total.packets) o ⟨0, 0, 0⟩ _ u.sendable
      have hpass : ∃ stats, streamPackets (met pass) fps
          (maxPackets.map fun most => most - total.packets) (clock pass).1 (clock pass).2 o
          (packetsFromStream packetization reads) = (.ok stats, after) := by
        rw [streamPackets, if_neg (not_le.mpr u.fps), hloop]
        cases full with
        | true => exact ⟨_, rfl⟩
        | false =>
            simp only [u.ending]
            exact ⟨_, rfl⟩
      obtain ⟨stats, hstats⟩ := hpass
      rw [streamFileLoop, hstats] at h
      simp only at h
      split at h
      · exact ⟨_, congrArg Prod.fst (Option.some.inj h).symm⟩
      · exact ih h

/-- Whatever the calls meet, the file is sent up to the limit and no further, and the call
ends; where nothing fails it succeeds. A stream is not sent beyond the limit either. -/
def RespectsLimit (reads : List Protocol.Bytes) (packetization : String) (loop : Bool) (limit : Nat) :
    Prop :=
  ∀ (met : Nat → Nat → Encounter) (clock : Nat → Rat × Rat) (fps : Rat) (codec : FrameCodec),
    (∃ fuel outcome after,
      streamH264File met clock reads fps packetization loop (some limit) fuel ⟨codec, []⟩ =
        some (outcome, after) ∧
      after.sent <+: wanted loop (packetsFromStream packetization reads).items limit ∧
      (∀ stats, outcome = .ok stats →
        after.sent = wanted loop (packetsFromStream packetization reads).items limit) ∧
      (Unhindered met fps (packetsFromStream packetization reads) →
        ∃ stats, outcome = .ok stats)) ∧
    (streamH264Stream (met 0) reads fps packetization (some limit) (clock 0).1 (clock 0).2
      ⟨codec, []⟩).2.sent.length ≤ limit

/-- The limit is respected exactly if it is not zero or the first packet cannot be sent. -/
theorem packet_limit_respected (reads : List Protocol.Bytes) (packetization : String) (loop : Bool)
    (limit : Nat) : RespectsLimit reads packetization loop limit ↔
      0 < limit ∨ ∀ packet ∈ (packetsFromStream packetization reads).items.head?,
        ¬ Sendable packet := by
  constructor
  · intro h
    by_contra hzero
    push Not at hzero
    obtain ⟨hlimit, packet, hhead, hsendable⟩ := hzero
    obtain rfl := Nat.le_zero.mp hlimit
    -- with nothing in its way the first packet is sent before the limit is looked at
    have hstream := (h (fun _ _ => .clear) (fun _ => (0, 0)) 1 (FrameCodec.create 0)).2
    obtain ⟨data, hdata, hsend⟩ := @Outlet.sendVideoPacket_clear ⟨FrameCodec.create 0, []⟩ packet
      hsendable.1 hsendable.2
    cases hitems : (packetsFromStream packetization reads).items with
    | nil =>
        rw [hitems] at hhead
        cases hhead
    | cons first rest =>
        rw [hitems] at hhead
        obtain rfl := Option.some.inj hhead
        rw [streamH264Stream, streamPackets, if_neg (by norm_num), hitems, streamLoop, hsend]
          at hstream
        simp [Counts.add, Outlet.sent] at hstream
  · intro h met clock fps codec
    by_cases hpos : 0 < limit
    · obtain ⟨fuel, outcome, after, taken, hrun, hsent, hprefix, hends⟩ :=
        @streamFileLoop_sent met clock reads fps packetization loop limit limit 0 ⟨0, 0, 0, 0⟩
          ⟨codec, []⟩ (by simp) hpos
      change after.sent = [] ++ taken at hsent
      rw [List.nil_append] at hsent
      obtain ⟨sent, hstream, hlimited, -⟩ := @streamPackets_sent (met 0) fps (clock 0).1
        (clock 0).2 limit ⟨codec, []⟩ (packetsFromStream packetization reads) hpos
      refine ⟨⟨fuel, outcome, after, hrun, hsent ▸ hprefix, ?_, ?_⟩, ?_⟩
      · exact fun stats hok => hsent.trans (hends stats hok)
      · exact fun u => streamFileLoop_unhindered u hrun
      · rw [streamH264Stream, hstream]
        exact hlimited.length_le.trans (List.length_take_le limit _)
    · obtain rfl : limit = 0 := Nat.eq_zero_of_not_pos hpos
      have hfirst := h.resolve_left hpos
      have hwanted : wanted loop (packetsFromStream packetization reads).items 0 = [] :=
        List.eq_nil_of_length_eq_zero (Nat.le_zero.mp (wanted_length loop 0))
      obtain ⟨hfile, hnone⟩ := @streamPackets_nothing (met 0) fps (clock 0).1 (clock 0).2
        (some 0) ⟨codec, []⟩ _ hfirst
      constructor
      · cases hpass : streamPackets (met 0) fps (some 0) (clock 0).1 (clock 0).2 ⟨codec, []⟩
            (packetsFromStream packetization reads) with
        | mk outcome after =>
            rw [hpass] at hfile hnone
            change after.sent = [] at hfile
            cases outcome with
            | error fault =>
                have hrun : streamH264File met clock reads fps packetization loop
                    (some (0 : Nat)) 1 ⟨codec, []⟩ = some (.error fault, after) := by
                  rw [streamH264File, streamFileLoop]
                  simp [hpass]
                refine ⟨1, .error fault, after, hrun, ?_, ?_, ?_⟩
                · rw [hfile]
                  exact List.nil_prefix
                · exact fun _ hok => by cases hok
                · exact fun u => streamFileLoop_unhindered u hrun
            | ok stats =>
                obtain ⟨-, hcount⟩ := hnone stats rfl
                have hrun : ∃ final, streamH264File met clock reads fps packetization loop
                    (some (0 : Nat)) 1 ⟨codec, []⟩ = some (.ok final, after) := by
                  rw [streamH264File, streamFileLoop]
                  simp [hpass, hcount]
                obtain ⟨final, hrun⟩ := hrun
                refine ⟨1, .ok final, after, hrun, ?_, ?_, ?_⟩
                · rw [hfile]
                  exact List.nil_prefix
                · exact fun _ _ => hfile.trans hwanted.symm
                · exact fun _ => ⟨_, rfl⟩
      · rw [streamH264Stream]
        change (streamPackets (met 0) fps (some 0) _ _ _ _).2.sent.length ≤ 0
        rw [hfile]
        exact Nat.le_refl 0

/-- One unit and the limit zero. -/
theorem zero_limit_sends :
    ¬ ∀ (reads : List Protocol.Bytes) (packetization : String) (loop : Bool) (limit : Nat),
      RespectsLimit reads packetization loop limit := by
  intro hall
  have hstream := (hall [[0, 0, 1, 0x65]] "nal" false 0 (fun _ _ => .clear) (fun _ => (0, 0)) 30
    (FrameCodec.create 0)).2
  revert hstream
  decide +kernel

end HccastWired.Video
