import IrohShare.Delivered

/-! Offers on a connection that is lost: what has been written is a beginning of the whole,
whatever is read back from it has the name and the size of the offer, and so a window never
asks its user about another file than the one that is sent. -/
namespace IrohShare
open Wire Unix Reader Transition

variable {parse : String → Option BlobTicket} {toString : BlobTicket → String} {offer : Offer}

namespace Writer

theorem writeAll_append (front back : Bytes) :
    (writeAll front >>= fun _ => writeAll back) = writeAll (front ++ back) := by
  funext stream
  rw [bind_run]
  obtain ⟨written, finished, budget⟩ := stream
  cases budget with
  | none => simp only [writeAll, List.append_assoc]
  | some room =>
    by_cases front_fits : front.length ≤ room
    · by_cases fits : front.length + back.length ≤ room
      · have back_fits : back.length ≤ room - front.length := by omega
        simp only [writeAll, List.length_append, if_pos front_fits, if_pos fits, if_pos back_fits,
          List.append_assoc, Nat.sub_sub]
      · have back_cut : ¬back.length ≤ room - front.length := by omega
        simp only [writeAll, List.length_append, if_pos front_fits, if_neg fits, if_neg back_cut,
          List.append_assoc, List.take_append, List.take_of_length_le front_fits]
    · have cut : ¬front.length + back.length ≤ room := by omega
      have none_left : room - front.length = 0 := by omega
      simp only [writeAll, List.length_append, if_neg front_fits, if_neg cut, List.take_append,
        none_left, List.take_zero, List.append_nil]

end Writer

theorem DownloadStatus.writeTo_eq (status : DownloadStatus) :
    status.writeTo = writeAll status.bytes := by
  cases status with
  | progress downloaded => exact Writer.writeAll_append [2] (u64Bytes downloaded)
  | completed | failed => rfl

theorem writeTo_eq (short : (utf8 offer.filename).length < 65536) : offer.writeTo toString =
    (do writeAll (offer.encode (toString offer.ticket)); finish) := by
  funext stream
  have fits : u16TryFrom (utf8 offer.filename).length =
      .ok (utf8 offer.filename).length.toUInt16 := u16TryFrom_eq_ok.mpr ⟨short, rfl⟩
  rw [Offer.writeTo, Writer.bind_run, Writer.lift_run, fits]
  simp only [Offer.encode, ← Writer.writeAll_append, bind_assoc, writeU16, writeU64]

theorem finish_written (stream : SendStream) : (finish stream).2.written = stream.written := by
  unfold finish
  split <;> rfl

/-- What has been written on a fresh stream begins the encoding, whatever it carried. -/
theorem writeTo_begins (toString : BlobTicket → String) (offer : Offer) (budget : Option Nat) :
    (offer.writeTo toString ⟨[], false, budget⟩).2.written <+:
      offer.encode (toString offer.ticket) := by
  by_cases short : (utf8 offer.filename).length < 65536
  · rw [writeTo_eq short, Writer.bind_run]
    cases budget with
    | none =>
      simp only [writeAll, finish_written, List.nil_append, List.prefix_rfl]
    | some room =>
      simp only [writeAll]
      split
      · rename_i done
        split at done <;> cases done
        rw [finish_written]
        exact List.prefix_rfl
      · rename_i done
        split at done <;> cases done
        exact List.take_prefix _ _
  · rw [writeTo_rejects (by omega)]
    exact List.nil_prefix

/-- Two encodings of which one begins the other have the same name and the same size. -/
theorem encode_begins {first second : Offer} {text text' : String}
    (short : (utf8 first.filename).length < 65536)
    (short' : (utf8 second.filename).length < 65536)
    (begins : first.encode text <+: second.encode text') :
    first.filename = second.filename ∧ first.filesize = second.filesize ∧
      utf8 text <+: utf8 text' := by
  obtain ⟨rest, whole⟩ := begins
  simp only [Offer.encode, List.append_assoc] at whole
  obtain ⟨len, whole⟩ := List.append_inj whole (by simp)
  have lengths : (utf8 first.filename).length = (utf8 second.filename).length := by
    have := congrArg UInt16.toNat (u16Bytes_injective len)
    simpa only [Nat.toUInt16_eq, UInt16.toNat_ofNat', Nat.mod_eq_of_lt short,
      Nat.mod_eq_of_lt short'] using this
  obtain ⟨name, whole⟩ := List.append_inj whole lengths
  obtain ⟨size, ticket⟩ := List.append_inj whole (by simp)
  exact ⟨utf8_injective name, u64Bytes_injective size, rest, ticket⟩

/-- Wherever the connection of an offer is lost, what `read_from` makes of the bytes is an
error, or an offer of that name and size whose ticket is spelled by a beginning of the text. -/
theorem cut_offers_agree {budget : Option Nat} {other : Offer}
    (read : Offer.decode parse (offer.writeTo toString ⟨[], false, budget⟩).2.written = .ok other) :
    other.filename = offer.filename ∧ other.filesize = offer.filesize ∧
      ∃ text, parse text = some other.ticket ∧ utf8 text <+: utf8 (toString offer.ticket) := by
  obtain ⟨text, parsed, _, bound, same⟩ := decode_eq_ok.mp read
  have short : (utf8 offer.filename).length < 65536 := by
    by_contra long
    rw [writeTo_rejects (by omega)] at same
    have size : 0 = (other.encode text).length := congrArg List.length same
    simp only [Offer.encode, List.length_append, u16Bytes_length] at size
    omega
  have begins := writeTo_begins toString offer budget
  rw [same] at begins
  obtain ⟨filename, filesize, spelled⟩ := encode_begins (by omega) short begins
  exact ⟨filename, filesize, text, parsed, spelled⟩

/-- Thirty bytes of an offer, read with a parser that takes any text for the ticket. -/
theorem cut_offers_agree_sample : ∃ other : Offer,
    Offer.decode (fun _ => some sampleTicket)
      (sampleOffer.writeTo sampleToString ⟨[], false, some 30⟩).2.written = .ok other ∧
    other.filename = sampleOffer.filename ∧ other.filesize = sampleOffer.filesize := by
  obtain ⟨other, read⟩ : ∃ other : Offer, Offer.decode (fun _ => some sampleTicket)
      (sampleOffer.writeTo sampleToString ⟨[], false, some 30⟩).2.written = .ok other := by
    refine ⟨sampleOffer, ?_⟩
    decide +kernel
  obtain ⟨filename, filesize, _⟩ := cut_offers_agree read
  exact ⟨other, read, filename, filesize⟩

/-- Whom and what a window asks about is the sending device and the file of its send task,
under the last component of its path, even if the connection broke while the offer was
written, and whatever the texts of tickets are. -/
theorem Network.prompt_agrees {ι : Type} [DecidableEq ι] {world : World ι} {net : Network ι}
    {files : ι → List PathBuf} {actions : List (NetworkAction ι)} {i : ι} {id : Nat}
    {link : Link ι} {other : Offer}
    (run : Run (Steps (Network.step world)) (.new files) actions net)
    (known : net.links (i, id) = some link)
    (pending : (net.nodes link.device).app.pendingOffers = some (other, link.handler)) :
    other.filename = link.offer.filename ∧ other.filesize = link.offer.filesize ∧
      other.ticket.addr.id = world.ident i ∧ ∃ task, (net.nodes i).tasks[id]? = some task ∧
        PathBuf.fileName ⟨utf8 task.filename⟩ = some (utf8 other.filename) := by
  obtain ⟨past, task, transfer, linked⟩ := (Network.inv run).linked i id link known
  have side := Node.receiving_inv (Network.node_run run link.device)
  have waiting : (other, link.handler) ∈ (net.nodes link.device).receiving.requests := by
    simp [Receiving.requests, Node.receiving, pending]
  obtain ⟨_, connection, found, state⟩ := side.waiting other link.handler waiting
  obtain rfl := Option.some.inj (found.symm.trans linked.handler)
  obtain ⟨remote, _, facts, decoded⟩ := connection_facts (Transfer.inv linked.run).runs
  have stage := facts.stage
  rw [state] at stage
  obtain ⟨_, read, authentic, _⟩ := stage
  obtain ⟨filename, filesize, _⟩ := cut_offers_agree (decoded other read)
  obtain ⟨answers, prepared⟩ := linked.prepared
  exact ⟨filename, filesize, authentic, task, linked.found, filename ▸ prepared_name prepared⟩

def samplePrompt : List (NetworkAction Bool) :=
  sampleSelects ++ sampleOffered 0 sampleTarget sampleNotes {}

theorem prompt_agrees_sample : ∃ net : Network Bool, ∃ task,
    (net.nodes false).app.pendingOffers = some (sampleNotes, 0) ∧
    (net.nodes true).tasks[0]? = some task ∧
    PathBuf.fileName ⟨utf8 task.filename⟩ = some (utf8 "notes.txt") := by
  obtain ⟨net, run, pending, linked⟩ : ∃ net : Network Bool,
      Run (Steps (Network.step sampleWorld)) (.new fun _ => []) samplePrompt.reverse net ∧
      (net.nodes false).app.pendingOffers = some (sampleNotes, 0) ∧
      (net.links (true, 0)).map (fun link => (link.device, link.handler)) = some (false, 0) := by
    apply execute_reaches
    decide +kernel
  obtain ⟨link, known, place⟩ := Option.map_eq_some_iff.mp linked
  obtain ⟨device, handler⟩ := Prod.mk.inj place
  have asked : (net.nodes link.device).app.pendingOffers = some (sampleNotes, link.handler) := by
    rw [device, handler]
    exact pending
  obtain ⟨_, _, _, task, found, named⟩ := Network.prompt_agrees run known asked
  exact ⟨net, task, pending, found, named⟩

end IrohShare
